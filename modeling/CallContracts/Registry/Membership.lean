import CallContracts.Script.Eval
import CallContracts.Signature.Parser

/-!
Asking whether a value is of a type.

A type expression is resolved to the entry of its name and its descriptor. The predicate of an
entry is given the value, the descriptor and the registry's own membership test, cut off to the
number of arguments that it takes. `accepts` passes faults on; `isMember` never faults on account of
a predicate, for a predicate that fails does not hold.

Main definitions: `Registry.resolve`, `Entry.ask`, `Registry.isMember`, `Registry.matches`.
-/

namespace CallContracts

namespace Registry

/-! ### Names -/

/-- The entry of a name, which must be registered. -/
def entry (r : RegistryId) (name : String) : Act Entry := do
  match (← Act.registry r).find? name with
  | some e => return e
  | none => Act.throw (.unknownType (.text name))

/-- The entry of a value that is used as a name. -/
def lookup (r : RegistryId) (v : Value) : Act Entry :=
  match v.text? with
  | some name => entry r name
  | none => if v.isHashable then Act.throw (.unknownType v) else Act.mishap .type

/-- The ancestry of a value that is used as a name. -/
def chain (r : RegistryId) (v : Value) : Act String := do
  match v.text? with
  | some name => return (← Act.registry r).typeChain name
  | none => if v.isHashable then return undefinedType else Act.mishap .type

/-! ### Type expressions -/

/-- The bytes without the blanks at both ends. -/
def trimBytes (bs : List UInt8) : List UInt8 :=
  let isBlank (b : UInt8) : Bool := (9 ≤ b && b ≤ 13) || b == 32
  ((bs.dropWhile isBlank).reverse.dropWhile isBlank).reverse

/-- Reads a type expression. Bytes that are not blank read as a name that nobody can register. -/
def readType (v : Value) : Act Descriptor :=
  match v with
  | .scalar (.text s) => Act.orSignatureFault (Descriptor.parse s)
  | .scalar (.bytes bs) =>
    let name := trimBytes bs
    if name.isEmpty then Act.throw (.signature ⟨.emptyBytes bs, none⟩)
    else Act.throw (.unknownType (.scalar (.bytes name)))
  | _ => Act.mishap .attribute

/-- The entry and the descriptor of a type expression. -/
def resolve (r : RegistryId) (v : Value) : Act (Entry × Descriptor) := do
  let d ← readType v
  return (← entry r d.name, d)

end Registry

/-! ### Predicates -/

variable (invoke : Invoke)

/-- The membership test of a registry, as a predicate receives it. -/
def Registry.membershipTest (r : RegistryId) : Value := .function (.operation r .isTypeOf)

/-- The arguments of a predicate. -/
def Entry.arguments (e : Entry) (r : RegistryId) (v descriptor : Value) : List Value :=
  [v, descriptor, Registry.membershipTest r].take e.arity

/-- What the predicate of an entry answers. -/
def Entry.ask (e : Entry) (r : RegistryId) (v descriptor : Value) : Act Value :=
  invoke e.predicate (e.arguments r v descriptor) []

namespace Registry

/-- Whether the predicate of an entry holds; one that faults does not hold. -/
def holds (r : RegistryId) (e : Entry) (d : Descriptor) (v : Value) : Act Bool := do
  match ← Act.attempt (e.ask invoke r v (.descriptor d)) with
  | .ok answer => return answer.truth (← Act.heap)
  | .error _ => return false

/-- Whether a value is of the type that an expression describes. -/
def isMember (r : RegistryId) (expression : String) (v : Value) : Act Bool := do
  let (e, d) ← resolve r (.text expression)
  holds invoke r e d v

/-- What the predicate of a type reference answers; the reference is anything with a name. -/
def «matches» (r : RegistryId) (descriptor v : Value) : Act Value := do
  let name ← Act.orMishap .attribute (descriptor.attribute? "name")
  let e ← lookup r name
  e.ask invoke r v descriptor

/-- Whether the predicate of a type reference holds. One that rejects a value as foreign to its
parent type does not hold; any other fault passes on. -/
def accepts (r : RegistryId) (d : Descriptor) (v : Value) : Act Bool := do
  match ← Act.attempt («matches» invoke r (.descriptor d) v) with
  | .ok answer => return answer.truth (← Act.heap)
  | .error f => if f.isTypeMismatch then return false else Act.throw f

end Registry

end CallContracts
