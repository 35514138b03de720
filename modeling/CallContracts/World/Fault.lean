import CallContracts.Signature.Fault
import CallContracts.Value.Heap

/-!
What a computation can fail with.

A fault is a fault of a signature, one of the four refusals of checked calls, an unknown or
duplicate type, another refusal of the library (`Refusal`), or a mishap of a function body.
`Fault.message?` gives the wording of all but the last.
-/

namespace CallContracts

/-- Refusals of the library that carry nothing but their wording. -/
inductive Refusal where
  /-- Only callables can be signed. -/
  | notCallable (typeName : String)
  /-- The predicate of a type must be a callable. -/
  | predicateNotCallable (name : String)
  /-- A type needs a name. -/
  | blankName
  /-- A type expression with fewer arguments than its type needs. -/
  | fewArguments (name : String) (minimum : Nat)
  /-- A type reference has a label or arguments, not both. -/
  | labelAndArguments
  /-- The switch for the extended types must be a truth value. -/
  | extendedNotBoolean
  /-- The aliases must be given by name. -/
  | aliasesNotMapping
  /-- An alias gives a type expression to a name; this is the quoted name. -/
  | badAlias (name : String)
  /-- The document of a setup must hold a mapping. -/
  | rootNotMapping (document typeName : String)
  /-- A document that cannot be read. -/
  | invalidDocument
  /-- A document that is not there. -/
  | missingDocument (document : String)
  /-- A text that is no literal. -/
  | notLiteral (text : String)
  /-- A logger needs a name. -/
  | loggerName
  deriving Repr, DecidableEq

namespace Refusal

/-- What a refusal objects to. -/
inductive Category where
  | type
  | value
  | missing
  deriving Repr, DecidableEq

/-- What a refusal objects to. -/
def category : Refusal → Category
  | .notCallable _ | .predicateNotCallable _ => .type
  | .missingDocument _ => .missing
  | _ => .value

/-- The wording of a refusal. -/
def message : Refusal → String
  | .notCallable typeName => s!"only callables can be signed, got {typeName}"
  | .predicateNotCallable name => s!"predicate for type {Text.quoted name} must be callable"
  | .blankName => "type names must be non-empty strings"
  | .fewArguments name minimum => s!"type {name} expects at least {minimum} value type(s)"
  | .labelAndArguments => "a type descriptor cannot carry both a sub type and value types"
  | .extendedNotBoolean => "extended_types must be a boolean"
  | .aliasesNotMapping => "aliases must be a mapping of name to type expression"
  | .badAlias name => s!"alias {name} must map a name to a type expression string"
  | .rootNotMapping document typeName => s!"{document} must contain a mapping, got {typeName}"
  | .invalidDocument => "invalid YAML"
  | .missingDocument document => s!"configuration file not found: {document}"
  | .notLiteral text => s!"value must be a Python literal: {Text.quoted text}"
  | .loggerName => "logger name must be a non-empty string"

end Refusal

/-- What a computation can fail with. -/
inductive Fault where
  | signature (f : SignatureFault)
  /-- A type name that is taken. -/
  | duplicateType (name : String)
  /-- A type name that nobody registered; any value may be asked for. -/
  | unknownType (name : Value)
  /-- A required value that its type rejects, at its place among the values. -/
  | typeMismatch (expected : String) (value : Value) (position : Nat)
  /-- A skipped optional type with values left over. -/
  | unfulfilledOptional (expected : String) (remaining : List Value)
  /-- A result that its type rejects. -/
  | returnType (expected : String) (value : Value)
  | refusal (r : Refusal)
  | mishap (m : Mishap)

namespace Fault

/-- The wording of a fault; a mishap has none. -/
def message? : Fault → Option String
  | .signature f => some f.message
  | .duplicateType name => some s!"Cannot redefine type {name}"
  | .unknownType name => some s!"Type {name.bare []} is not known"
  | .typeMismatch expected value position =>
    some s!"Expected type {expected} but got {value.typeName} at position {position}"
  | .unfulfilledOptional expected remaining =>
    some (s!"Optional types were not fulfilled properly: {expected} skipped " ++
      s!"with {remaining.length} value(s) left unconsumed")
  | .returnType expected value =>
    some s!"Expected return value of type {expected} but got {value.typeName}"
  | .refusal r => some r.message
  | .mishap _ => none

/-- A value that its type rejects, as opposed to every other fault. -/
def isTypeMismatch : Fault → Bool
  | .typeMismatch .. => true
  | _ => false

/-- A fault of the values of a call: these are noted when a call is rejected. -/
def isRejection : Fault → Bool
  | .typeMismatch .. | .unfulfilledOptional .. => true
  | _ => false

end Fault

end CallContracts
