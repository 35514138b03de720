import CallContracts.Session.Environment

/-!
What can be seen of a value from outside, and what can be set on it.

Main definitions: `Inspection`, `Value.inspect` and `Value.setAttribute`.
-/

namespace CallContracts

/-- What a signed function shows of its contract. -/
structure ContractView where
  signature : String
  raw : String
  tree : Tree
  context : View
  callable : View

/-- What a value shows: its type, its parameters with whether they have a default, and its
contract if it is signed. -/
structure Inspection where
  typeName : String
  parameters : Option (List (String × ParameterKind × Bool))
  count : Nat
  name? : Option String
  contract : Option ContractView

namespace Value

/-- The contract of a signed function. -/
def contractView? (h : Heap) : Value → Option ContractView
  | .function (.signed s) =>
    some ⟨s.signature, s.raw, s.tree, s.context.view h, (Value.function s.callable).view h⟩
  | _ => none

/-- What a value shows. -/
def inspect (h : Heap) (v : Value) : Inspection where
  typeName := v.typeName
  parameters := v.parameters?.map fun ps => ps.map fun p => (p.name, p.kind, p.default?.isSome)
  count := v.parameterCount
  name? := v.name?
  contract := v.contractView? h

/-- The attributes of a signed function that cannot be set. -/
def fixedAttributes : List String :=
  ["signature", "raw_signature", "signature_tree", "execution_context", "original"]

/-- Sets an attribute. Type references, trees and entries are frozen, and a signed function keeps
its contract; objects and other functions take any attribute. -/
def setAttribute (name : String) : Value → Act Unit
  | .descriptor _ | .tree _ | .entry _ => Act.mishap .frozen
  | .function (.signed _) =>
    if name ∈ fixedAttributes then Act.mishap .attribute else pure ()
  | .function (.intrinsic b) => Act.mishap (if b.isKind then .type else .attribute)
  | .function (.method ..) | .function (.operation ..) | .function (.contract _) =>
    Act.mishap .attribute
  | .function _ | .object .. => pure ()
  | _ => Act.mishap .attribute

end Value

end CallContracts
