import CallContracts.Enforcement.Signing

/-!
Registering types.

A new type is a base type, a refinement of a registered type, or another name for a type
expression. The predicate of a refinement is enforced against its parent, so it is only asked about
values of the parent's type.

Main definitions: `Registry.register`, and on top of it `extend`, `bind` and `addAlias`.
-/

namespace CallContracts.Registry

/-- The ancestry of a type below another. -/
def chainBelow (parent name : String) : String := parent ++ " -> " ++ name

/-- Registers a predicate under a name with an ancestry. -/
def register (r : RegistryId) (chain : String) (name predicate : Value) : Act Unit := do
  match name.text? with
  | none => Act.refuse .blankName
  | some s =>
    if Text.isBlankText s then Act.refuse .blankName
    else if !predicate.isCallable then Act.refuse (.predicateNotCallable s)
    else
      let w ← Act.world
      match (w.registry r).insert? ⟨s, predicate, chain, predicate.predicateArity⟩ with
      | none => Act.throw (.duplicateType s)
      | some reg =>
        Act.setWorld (w.setRegistry r reg)
        Act.log (.registered s chain)

/-- The name of the type that every value is of. -/
def topName : String := "*"

/-- Registers a type below an ancestry. -/
def registerBelow (r : RegistryId) (parent : String) (name predicate : Value) : Act Unit :=
  register r (chainBelow parent (name.text?.getD "")) name predicate

/-- Registers a base type. -/
def extend (r : RegistryId) (name predicate : Value) : Act Unit :=
  registerBelow r topName name predicate

/-- What registers refinements of a registered type. -/
def subtype (r : RegistryId) (existing : Value) : Act Value := do
  let e ← lookup r existing
  return .function (.binder r e.name)

/-- The contract of the predicate of a refinement. -/
def refinementContract (parent : String) : String :=
  parent ++ ", [object], [function] => boolean"

/-- Registers a refinement: its predicate is enforced against the parent. -/
def bind (r : RegistryId) (parent : String) (name predicate : Value) : Act Unit := do
  let s ← Enforcer.enforce r (.text (refinementContract parent)) predicate .null
  let chain := (← Act.registry r).typeChain parent
  registerBelow r chain name (.function (.signed s))

/-- Registers a name for a type expression. -/
def addAlias (r : RegistryId) (name expression : Value) : Act Unit := do
  let (e, d) ← resolve r expression
  let chain := (← Act.registry r).typeChain d.name
  registerBelow r chain name (.function (.tester r e d))

end CallContracts.Registry
