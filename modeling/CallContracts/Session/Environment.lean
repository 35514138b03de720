import CallContracts.Enforcement.Apply
import CallContracts.Registry.Library
import CallContracts.Session.Setup

/-!
Environments: a registry, its enforcer, and perhaps a facade.

A facade offers the operations of a registry and its enforcer as enforced functions, each with a
contract of its own, so that a misuse fails as a misused function of a program does.

Main definitions: `Environment`, `Environment.contracts`, `Environment.plain` and
`Environment.withFacade`.
-/

namespace CallContracts

/-- A registry, and the facade that stands in front of it if there is one. -/
structure Environment where
  registry : RegistryId
  facade : List (Operation × Signed)

namespace Environment

/-- The contracts of a facade's operations. -/
def contracts : List (Operation × String) :=
  [(.sign, "string, function, [object] => function"),
   (.verify, "function, array => undefined"),
   (.enforce, "string, function, [object] => function"),
   (.extend, "string, function => undefined"),
   (.subtype, "string => string, function => undefined"),
   (.alias, "string, string => undefined"),
   (.isTypeOf, "string => * => boolean"),
   (.typeChain, "string => string")]

/-- An environment without a facade. -/
def plain (base extended : Bool) : Act Environment := do
  let r ← Registry.create base
  if extended then Registry.install r
  return ⟨r, []⟩

/-- One operation of a facade. -/
def offer (r : RegistryId) (op : Operation) (contract : String) : Act (Operation × Signed) := do
  return (op, ← Enforcer.enforce r (.text contract) (.function (.operation r op)) .null)

/-- An environment with a facade. -/
def withFacade (s : Setup) : Act Environment := do
  let r ← Registry.create true
  if s.extendedTypes then Registry.install r
  let _ ← Act.each (fun (name, expression) =>
    Registry.addAlias r (.text name) (.text expression)) s.aliases
  let facade ← Act.each (fun (op, contract) => offer r op contract) contracts
  Act.log (.ready (← Act.registry r).entries.length s.aliases.length)
  return ⟨r, facade⟩

/-- An operation of the facade. -/
def operation? (env : Environment) (op : Operation) : Option Value :=
  (env.facade.lookup op).map fun s => .function (.signed s)

/-- The maker of decorators that enforce a contract. -/
def contract? (env : Environment) : Option Value :=
  (env.facade.lookup .enforce).map fun s => .function (.contract s)

/-- The types of an environment's registry: name, ancestry and number of arguments. -/
def types (env : Environment) : Act (List (String × String × Nat)) := do
  return (← Act.registry env.registry).entries.map fun e => (e.name, e.chain, e.arity)

end Environment

end CallContracts
