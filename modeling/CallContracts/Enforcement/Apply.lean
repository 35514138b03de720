import CallContracts.Registry.Predicates
import CallContracts.Registry.Registration
import CallContracts.Value.Intrinsics

/-!
Calling values.

`Function.apply` says what a call of each kind of function does; the calls that it makes in turn go
through an `Invoke`. `invoke` ties the two together to a depth: a call at depth zero is exhausted.

Main definitions: `Operation.run`, `Function.apply`, `invoke`, `invokeValue`. Main statements:
`invoke_succ`, one level of depth is spent on one call, and `invoke_zero`.
-/

namespace CallContracts

variable (invoke : Invoke)

/-- Carries out an operation of a registry or its enforcer on the values of its parameters. -/
def Operation.run (r : RegistryId) : Operation → List Value → Act Value
  | .extend, [name, predicate] => do
    Registry.extend r name predicate
    return .null
  | .subtype, [existing] => Registry.subtype r existing
  | .alias, [name, expression] => do
    Registry.addAlias r name expression
    return .null
  | .isTypeOf, [expression] => do
    let (e, d) ← Registry.resolve r expression
    return .function (.tester r e d)
  | .typeChain, [name] => do return .text (← Registry.chain r name)
  | .lookup, [name] => do return .entry (← Registry.lookup r name)
  | .matches, [descriptor, v] => Registry.matches invoke r descriptor v
  | .sign, [signature, f, context] => do
    return .function (.signed (← Enforcer.sign r signature f context))
  | .verify, [f, values] => do
    Enforcer.verify invoke r f values
    return .null
  | .enforce, [signature, f, context] => do
    return .function (.signed (← Enforcer.enforce r signature f context))
  | .wrap, [f] => do return .function (.signed (← Enforcer.wrap r f))
  | _, _ => Act.mishap .type

/-- The name of the parameter that a signed function keeps for itself. -/
def receiverName : String := "self"

/-- Calls a signed function. A plain one hands the call on, its context in front; an enforced one
checks the call. No keyword may take the name that the function keeps for itself. -/
def Signed.apply (s : Signed) (args : List Value) (kw : Call.Keywords Value) : Act Value :=
  if Call.hasKeyword receiverName kw then Act.mishap .type
  else
    match s with
    | .plain callable _ _ context binds =>
      if Signed.receives context binds then invoke (.function callable) (context :: args) kw
      else invoke (.function callable) args kw
    | .enforced target r => Enforcer.call invoke r target args kw

/-- What a call of a function does. -/
def Function.apply : Function → List Value → Call.Keywords Value → Act Value
  | .closure c, args, kw => c.run invoke args kw
  | .method receiver c, args, kw => c.run invoke (receiver :: args) kw
  | .kind serial name parameters, args, kw => do
    let _ ← Call.values parameters args kw
    return .object (← Act.fresh) name (some serial)
  | .intrinsic b, args, kw => if kw.isEmpty then b.answer args else Act.mishap .type
  | .predicate p, args, kw => do
    let values ← Call.values p.parameters args kw
    p.answer invoke (values.getD 0 .null) (values.getD 1 .null) (values.getD 2 .null)
  | f@(.tester r e d), args, kw => do
    let values ← Call.values (f.parameters?.getD []) args kw
    return .bool (← Registry.holds invoke r e d (values.getD 0 .null))
  | f@(.binder r parent), args, kw => do
    let values ← Call.values (f.parameters?.getD []) args kw
    Registry.bind r parent (values.getD 0 .null) (values.getD 1 .null)
    return .null
  | .operation r op, args, kw => do
    let values ← Call.values op.parameters args kw
    op.run invoke r values
  | f@(.contract enforce), args, kw => do
    let values ← Call.values (f.parameters?.getD []) args kw
    return .function (.decorator enforce (values.getD 0 .null) (values.getD 1 .null))
  | f@(.decorator enforce signature context), args, kw => do
    let values ← Call.values (f.parameters?.getD []) args kw
    invoke (.function (.signed enforce)) [signature, values.getD 0 .null, context] []
  | .signed s, args, kw => s.apply invoke args kw

/-- Calls a value, which must be a function. -/
def Value.apply : Value → List Value → Call.Keywords Value → Act Value
  | .function f, args, kw => f.apply invoke args kw
  | _, _, _ => Act.mishap .type

end CallContracts

namespace CallContracts

/-- Calls a value; calls nest at most to a depth. -/
def invoke : (depth : Nat) → Invoke
  | 0, _, _, _ => Act.exhausted
  | n + 1, v, args, kw => v.apply (invoke n) args kw

theorem invoke_zero (v : Value) (args : List Value) (kw : Call.Keywords Value) :
    invoke 0 v args kw = Act.exhausted := rfl

theorem invoke_succ (n : Nat) (v : Value) (args : List Value) (kw : Call.Keywords Value) :
    invoke (n + 1) v args kw = v.apply (invoke n) args kw := rfl

/-- The depth to which calls nest. -/
def callDepth : Nat := 1000

/-- Calls a value to the depth to which calls nest. -/
def invokeValue : Invoke := invoke callDepth

/-- Makes a written value. -/
def Datum.value (d : Datum) : Act Value := d.make invokeValue

end CallContracts
