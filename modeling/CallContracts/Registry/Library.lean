import CallContracts.Registry.Registration

/-!
The types that come with the library.

The base types cover the scalars, arrays and functions. The extended types refine them: whole and
bounded numbers, tuples, texts of bounded length or of a pattern, and the union of several types.

Main definitions: `Registry.baseTypes`, `Registry.refinements`, `Registry.create`,
`Registry.install`.
-/

namespace CallContracts.Registry

/-- The base types with their ancestry. -/
def baseTypes : List (String × NativePredicate × String) :=
  [("*", .anything, "*"),
   ("any", .anything, "* -> any"),
   ("()", .isNone, "* -> undefined -> ()"),
   ("undefined", .isNone, "* -> undefined"),
   ("boolean", .isBoolean, "* -> boolean"),
   ("number", .isNumber, "* -> number"),
   ("string", .isString, "* -> string"),
   ("symbol", .isSymbol, "* -> symbol"),
   ("object", .isObject, "* -> object"),
   ("array", .isArray, "* -> object -> array"),
   ("function", .isFunction, "* -> function")]

/-- The refinements among the extended types: parent, name and predicate. -/
def refinements : List (String × String × NativePredicate) :=
  [("number", "int", .isInt),
   ("number", "bounded", .isBounded),
   ("int", "boundedInt", .isBoundedInt),
   ("array", "tuple", .isTuple),
   ("string", "boundedString", .isBoundedString),
   ("string", "formattedString", .isFormattedString)]

/-- The name of the union of several types. -/
def unionName : String := "taggedUnion"

/-- A predicate of the library as a value. -/
def predicate (p : NativePredicate) : Value := .function (.predicate p)

/-- A new registry, with the base types or without. -/
def create (base : Bool) : Act RegistryId := do
  let w ← Act.world
  let r := w.registries.length
  Act.setWorld { w with registries := w.registries ++ [.empty] }
  if base then
    let _ ← Act.each (fun (name, p, chain) => register r chain (.text name) (predicate p)) baseTypes
  return r

/-- Registers the extended types. -/
def install (r : RegistryId) : Act Unit := do
  let _ ← Act.each (fun (parent, name, p) => do
    let e ← entry r parent
    bind r e.name (.text name) (predicate p)) refinements
  extend r (.text unionName) (predicate .isTaggedUnion)

end CallContracts.Registry
