import CallContracts.Text.Quoted

/-!
What can be wrong with a signature.

A `SignatureFault` has a cause and usually the text that it was found in. The wording of every
cause stands in `SignatureFault.Cause.text`, and `SignatureFault.message` adds the quoted subject.
-/

namespace CallContracts

/-- Why a signature, or its use, is refused. -/
inductive SignatureFault.Cause where
  /-- A signature must be a text, and this type of value is none. -/
  | notText (typeName : String)
  /-- A `>` at this place closes nothing. -/
  | strayClose (position : Nat)
  /-- A `<` is never closed. -/
  | unclosed
  /-- A type expression without a name. -/
  | emptyType
  /-- The same in bytes, which are the subject then. -/
  | emptyBytes (bytes : List UInt8)
  /-- Arguments that do not end in `>`. -/
  | openArguments
  /-- A stage without a type. -/
  | emptyStage
  /-- Nothing between two commas. -/
  | emptyEntry
  /-- `()` beside other entries. -/
  | crowdedUnit
  /-- No arrow at all. -/
  | singleStage
  /-- A last stage that is not one return type. -/
  | severalReturns
  /-- A label on a type that takes none. -/
  | unexpectedLabel (name : String)
  /-- Names that nobody registered. -/
  | unknownTypes (names : List String)
  /-- A function that cannot take the first stage. -/
  | parameterCount (declared required total : Nat)
  /-- A function without a contract. -/
  | unsigned (function : String)
  /-- A bound that is no finite number. -/
  | badBound (raw name : String)
  deriving Repr, DecidableEq

/-- A cause, and the text that it was found in. -/
structure SignatureFault where
  cause : SignatureFault.Cause
  subject : Option String
  deriving Repr, DecidableEq

namespace SignatureFault

/-- The wording of a cause. -/
def Cause.text : Cause → String
  | .notText typeName => s!"signature must be a string, got {typeName}"
  | .strayClose position => s!"unbalanced '>' at position {position}"
  | .unclosed => "unbalanced '<' in type expression"
  | .emptyType | .emptyBytes _ => "empty type expression"
  | .openArguments => "value types must be closed with '>'"
  | .emptyStage => "every stage must declare at least one type"
  | .emptyEntry => "type list contains an empty entry"
  | .crowdedUnit => "'()' must be the only entry of its stage"
  | .singleStage => "Invalid signature: all signatures must have input and output types"
  | .severalReturns => "the final stage must declare exactly one return type"
  | .unexpectedLabel name => s!"type {Text.quoted name} does not accept a ':' label"
  | .unknownTypes names =>
    "Signature contains unknown data types: " ++ ", ".intercalate (names.map Text.quoted)
  | .parameterCount declared required total =>
    "Function parameter count and argument type count do not match " ++
      s!"({declared} declared, {required}-{total} typed)"
  | .unsigned function => s!"{function} has not been signed"
  | .badBound raw name => s!"bound {Text.quoted raw} of {name} is not a finite number"

/-- The quoted subject of a fault. -/
def quotedSubject? (f : SignatureFault) : Option String :=
  match f.cause with
  | .emptyBytes bytes => some (Text.quotedBytes bytes)
  | _ => f.subject.map Text.quoted

/-- The wording of a fault: its cause and the quoted subject. -/
def message (f : SignatureFault) : String :=
  match f.quotedSubject? with
  | none => f.cause.text
  | some subject => s!"{f.cause.text} (signature: {subject})"

end SignatureFault

end CallContracts
