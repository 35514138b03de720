import CallContracts.Value.Basic

/-!
What can be learnt about a callable without calling it.

Main definitions: `Function.parameters?`, the parameter list that a caller sees, `Function.name?`,
the name that messages use, `Function.typeName` and `Value.typeName`, and the two counts taken
from a parameter list: `Value.parameterCount` and `Value.predicateArity`.
-/

namespace CallContracts

/-! ### Names -/

/-- The name of an intrinsic function. -/
def Intrinsic.name : Intrinsic → String
  | .len => "len"
  | .callable => "callable"
  | .bool => "bool"
  | .int => "int"
  | .max => "max"
  | .isinstance => "isinstance"

/-- Intrinsic functions that are types. -/
def Intrinsic.isKind : Intrinsic → Bool
  | .bool | .int => true
  | _ => false

/-- The name of an operation. -/
def Operation.name : Operation → String
  | .extend => "extend"
  | .subtype => "subtype"
  | .alias => "alias"
  | .isTypeOf => "is_type_of"
  | .typeChain => "type_chain"
  | .lookup => "lookup"
  | .matches => "matches"
  | .sign => "sign"
  | .verify => "verify"
  | .enforce => "enforce"
  | .wrap => "wrap"

/-- The operations of the enforcer; the others are the registry's. -/
def Operation.isEnforcers : Operation → Bool
  | .sign | .verify | .enforce | .wrap => true
  | _ => false

/-- The name of an operation with its owner. -/
def Operation.fullName (op : Operation) : String :=
  (if op.isEnforcers then "Enforcer." else "TypeRegistry.") ++ op.name

/-- The name of a predicate. -/
def NativePredicate.name : NativePredicate → String
  | .anything => "_anything"
  | .isNone => "_is_none"
  | .isBoolean => "_is_boolean"
  | .isNumber => "_is_number"
  | .isString => "_is_string"
  | .isSymbol => "_is_symbol"
  | .isObject => "_is_object"
  | .isFunction => "_is_function"
  | .isArray => "_is_array"
  | .isInt => "_is_int"
  | .isBounded => "_is_bounded"
  | .isBoundedInt => "_is_bounded_int"
  | .isTuple => "_is_tuple"
  | .isBoundedString => "_is_bounded_string"
  | .isFormattedString => "_is_formatted_string"
  | .isTaggedUnion => "_is_tagged_union"

/-- The name of a function that is not signed, if it has one. -/
def Function.ownName? : Function → Option String
  | .closure c => match c.form with
    | .function => some c.name
    | .object => none
  | .method _ c => some c.name
  | .kind _ name _ => some name
  | .intrinsic b => some b.name
  | .predicate p => some p.name
  | .tester _ _ d => some ("is_" ++ d.name)
  | .binder _ _ => some "TypeRegistry.subtype.<locals>.bind"
  | .operation _ op => some op.fullName
  | .contract _ => some "Signet.contract"
  | .decorator .. => some "Signet.contract.<locals>.decorator"
  | .signed _ => none

/-- The name of a function, if it has one. A signed function goes by the name of the callable that
was signed. -/
def Function.name? (f : Function) : Option String := f.root.ownName?

/-- The name of a function without its owner. -/
def Function.shortName? (f : Function) : Option String :=
  match f.root with
  | .binder _ _ => some "bind"
  | .operation _ op => some op.name
  | .contract _ => some "contract"
  | .decorator .. => some "decorator"
  | _ => f.name?

/-- The name of a callable value, if it has one. -/
def Value.name? : Value → Option String
  | .function f => f.name?
  | _ => none

/-- The name of a function's type. -/
def Function.typeName : Function → String
  | .closure c => match c.form with
    | .function => "function"
    | .object => "CallObj"
  | .method .. | .operation .. | .contract _ => "method"
  | .kind .. => "type"
  | .intrinsic b => if b.isKind then "type" else "builtin_function_or_method"
  | .predicate _ | .tester .. | .binder .. | .decorator .. => "function"
  | .signed (.plain ..) => "SignedFunction"
  | .signed (.enforced ..) => "EnforcedFunction"

/-- The name of a value's type. An instance goes by the name of its class. -/
def Value.typeName : Value → String
  | .scalar s => s.typeName
  | .tuple _ => "tuple"
  | .set _ => "set"
  | .list _ => "list"
  | .dict _ => "dict"
  | .object _ label kind? => if kind?.isSome then label else "Thing"
  | .descriptor _ => "TypeDescriptor"
  | .tree _ => "SignatureTree"
  | .entry _ => "RegisteredType"
  | .function f => f.typeName

/-! ### Parameters -/

/-- The parameters of an intrinsic function; some do not tell. -/
def Intrinsic.parameters? : Intrinsic → Option (List (Parameter Value))
  | .len | .callable => some [.byPosition "obj"]
  | .isinstance => some [.byPosition "obj", .byPosition "class_or_tuple"]
  | .bool | .int | .max => none

/-- The parameters of an operation. -/
def Operation.parameters : Operation → List (Parameter Value)
  | .extend => [.plain "name", .plain "predicate"]
  | .subtype => [.plain "existing"]
  | .alias => [.plain "name", .plain "type_string"]
  | .isTypeOf => [.plain "type_string"]
  | .typeChain | .lookup => [.plain "name"]
  | .matches => [.plain "descriptor", .plain "value"]
  | .sign | .enforce =>
    [.plain "signature", .plain "fn", ⟨"context", .positional, some .null⟩]
  | .verify => [.plain "signed", .plain "args"]
  | .wrap => [.plain "signed"]

/-- The parameters of a predicate: it names as many of value, descriptor and tester as it uses. -/
def NativePredicate.parameters : NativePredicate → List (Parameter Value)
  | .isInt => [.plain "value"]
  | .isBounded | .isBoundedString | .isFormattedString => [.plain "value", .plain "descriptor"]
  | _ => [.plain "value", .plain "descriptor", .plain "is_type_of"]

mutual

/-- The parameters that a caller sees, if the function tells them. They are those that it is called
with: functions that tell of others instead (wrappers that pass for what they wrap, and functions
with a signature written on them) are left out. -/
def Function.parameters? : Function → Option (List (Parameter Value))
  | .closure c => some c.parameters
  | .method _ c => Parameter.dropReceiver? c.parameters
  | .kind _ _ parameters => some parameters
  | .intrinsic b => b.parameters?
  | .predicate p => some p.parameters
  | .tester .. => some [.plain "value"]
  | .binder .. => some [.plain "name", .plain "predicate"]
  | .operation _ op => some op.parameters
  | .contract _ => some [.plain "signature", ⟨"context", .positional, some .null⟩]
  | .decorator .. => some [.plain "fn"]
  | .signed s => s.parameters?

/-- The parameters of a signed function: those of its callable, without the one that receives the
context. -/
def Signed.parameters? : Signed → Option (List (Parameter Value))
  | .plain callable _ _ context binds =>
    if Signed.receives context binds then callable.parameters?.bind Parameter.dropReceiver?
    else callable.parameters?
  | .enforced target _ => target.parameters?

end

/-- The parameters of a callable value. -/
def Value.parameters? : Value → Option (List (Parameter Value))
  | .function f => f.parameters?
  | _ => none

/-- The number of parameters that a position can fill; none if the value does not tell. -/
def Value.parameterCount (v : Value) : Nat :=
  match v.parameters? with
  | some ps => Parameter.declaredCount ps
  | none => 0

/-- The number of arguments that a predicate is given; one if it does not tell its parameters. -/
def Value.predicateArity (v : Value) : Nat :=
  match v.parameters? with
  | some ps => Parameter.predicateArity ps
  | none => 1

theorem Value.predicateArity_le (v : Value) : v.predicateArity ≤ Parameter.greatestArity := by
  unfold Value.predicateArity
  split
  · exact Parameter.predicateArity_le _
  · decide

end CallContracts
