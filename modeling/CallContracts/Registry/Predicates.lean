import CallContracts.Registry.Membership

/-!
The predicates of the types that come with the library.

A predicate is asked about a value with the descriptor that it is tested for. The predicates of
composite types test the parts of a value through the membership test that they are given.

Main definitions: `NativePredicate.answer`, and for numbers `bound`, `isWhole` and `isBetween`.
-/

namespace CallContracts.NativePredicate

/-! ### Scalars -/

/-- Real numbers of the number types; truth values do not count. -/
def isReal : Value → Bool
  | .scalar (.int _) | .scalar (.float _) | .scalar (.fraction _) | .scalar (.level _) => true
  | _ => false

/-- Members of an enumeration. -/
def isSymbolValue : Value → Bool
  | .scalar (.colour _) | .scalar (.level _) => true
  | _ => false

/-- Values that are neither scalars nor callable; nothing counts as one of them, and so does the
marker of a parameter left out. -/
def isObjectValue : Value → Bool
  | .scalar .null | .scalar .absent | .scalar .ellipsis => true
  | .scalar _ | .function _ => false
  | _ => true

/-- The descriptor that a predicate is asked about. -/
def descriptorOf : Value → Act Descriptor
  | .descriptor d => pure d
  | _ => Act.mishap .attribute

/-- The arguments of a type, of which there must be a least number. -/
def typeArguments (d : Descriptor) (minimum : Nat) : Act (List String) :=
  let types := d.arguments?.getD []
  if types.length < minimum then Act.refuse (.fewArguments d.name minimum) else pure types

/-! ### Numbers -/

/-- The whole number that a bound stands for: the number nearest to the text, without its
fraction. -/
def bound (d : Descriptor) (raw : String) : Act Int :=
  match (Binary64.parse? raw).bind Binary64.value? with
  | some q => pure (Int.tdiv q.num q.den)
  | none => Act.throw (.signature ⟨.badBound raw d.name, some d.typeText⟩)

/-- Whether a number is whole. A fraction too large for a floating-point number faults. -/
def isWhole (v : Value) : Act Bool :=
  match v.number? with
  | some (.int _) => pure true
  | some (.float x) => pure (x.value?.any fun q => q.den == 1)
  | some (.fraction q) =>
    match Binary64.ofRat q with
    | .infinite _ => Act.mishap .overflow
    | _ => pure (q.den == 1)
  | _ => Act.mishap .type

/-- Whether a number lies between the first two arguments of a type. The upper one is read only if
the number is not below the lower one. -/
def isBetween (v : Value) (d : Descriptor) : Act Bool := do
  let types ← typeArguments d 2
  let h ← Act.heap
  let lower ← bound d (types.getD 0 "")
  if ← Value.orMishap (Value.precedes h false (.int lower) v) then
    let upper ← bound d (types.getD 1 "")
    Value.orMishap (Value.precedes h false v (.int upper))
  else return false

/-! ### Texts -/

/-- The number of a value's items. -/
def sizeOf (v : Value) : Act Nat := do Act.orMishap .type (v.length? (← Act.heap))

/-- Whether the length of a text lies between the arguments of a type; the upper one may be left
out. -/
def isOfLength (v : Value) (d : Descriptor) : Act Bool := do
  let types ← typeArguments d 1
  let lower ← bound d (types.getD 0 "")
  let n ← sizeOf v
  match types[1]? with
  | some raw =>
    let upper ← bound d raw
    return lower ≤ n && n ≤ upper
  | none => return decide (lower ≤ n)

/-- Whether a pattern, the first argument of a type, occurs in a text. -/
def isOfPattern (v : Value) (d : Descriptor) : Act Bool := do
  let types ← typeArguments d 1
  let occurs ← Value.orMishap ((← Act.host).search (types.getD 0 ""))
  match v.text? with
  | some text => return occurs text
  | none => Act.mishap .type

/-! ### Parts -/

variable (invoke : Invoke)

/-- What the membership test answers for a type expression and a value. -/
def test (membership : Value) (expression : String) (v : Value) : Act Value := do
  let tester ← invoke membership [.text expression] []
  invoke tester [v] []

/-- The truth of an answer. -/
def truth (answer : Act Value) : Act Bool := do
  let v ← answer
  return v.truth (← Act.heap)

/-- Whether all items are of the first argument of a type; without one any items will do. -/
def isArrayOf (items : List Value) (d : Descriptor) (membership : Value) : Act Bool := do
  let element := ((d.arguments?.getD []).head?).getD "*"
  if element = "*" then return true
  else
    let tester ← invoke membership [.text element] []
    Act.all (fun v => truth (invoke tester [v] [])) items

/-- Whether items are of the arguments of a type, one by one. -/
def isTupleOf (v : Value) (d : Descriptor) (membership : Value) : Act Bool := do
  let types := d.arguments?.getD []
  if (← sizeOf v) ≠ types.length then return false
  else
    let items ← Act.orMishap .type (v.items? (← Act.heap))
    Act.all (fun (t, v) => truth (test invoke membership t v)) (types.zip items)

/-- The type that a bounded whole number must be of besides being whole. -/
def boundedExpression (types : List String) : String :=
  "bounded<" ++ ";".intercalate types ++ ">"

/-- The items of a list or a tuple. -/
def arrayItems? (h : Heap) : Value → Option (List Value)
  | .tuple items => some items
  | .list a => h.list? a
  | _ => none

/-- What a predicate answers about a value, a descriptor and a membership test. -/
def answer (p : NativePredicate) (v descriptor membership : Value) : Act Value :=
  match p with
  | .anything => pure (.bool true)
  | .isNone => pure (.bool v.isNull)
  | .isBoolean => pure (.bool v.isBool)
  | .isNumber => pure (.bool (isReal v))
  | .isString => pure (.bool v.text?.isSome)
  | .isSymbol => pure (.bool (isSymbolValue v))
  | .isObject => pure (.bool (isObjectValue v))
  | .isFunction => do
    if !v.isCallable then return .bool false
    else
      match (← descriptorOf descriptor).arguments? with
      | none => return .bool true
      | some types => return .bool (decide (v.parameterCount ≤ types.length))
  | .isArray => do
    match arrayItems? (← Act.heap) v with
    | none => return .bool false
    | some items =>
      return .bool (← isArrayOf invoke items (← descriptorOf descriptor) membership)
  | .isInt => do return .bool (← isWhole v)
  | .isBounded => do return .bool (← isBetween v (← descriptorOf descriptor))
  | .isBoundedInt => do
    let types ← typeArguments (← descriptorOf descriptor) 2
    test invoke membership (boundedExpression types) v
  | .isTuple => do return .bool (← isTupleOf invoke v (← descriptorOf descriptor) membership)
  | .isBoundedString => do return .bool (← isOfLength v (← descriptorOf descriptor))
  | .isFormattedString => do return .bool (← isOfPattern v (← descriptorOf descriptor))
  | .isTaggedUnion => do
    let types := (← descriptorOf descriptor).arguments?.getD []
    return .bool (← Act.any (fun t => truth (test invoke membership t v)) types)

end CallContracts.NativePredicate
