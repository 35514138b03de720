import CallContracts.Document.Reader
import CallContracts.Enforcement.Apply

/-!
Documents that hold a mapping.

Main definitions: `Content`, what is found under the name of a document, `Content.ofText`, and
`Content.mapping`, the mapping that it must hold.
-/

namespace CallContracts.Document

/-- What is found under the name of a document. -/
inductive Content where
  | missing
  /-- A folder in place of a text. -/
  | folder
  /-- A text that is no document. -/
  | unreadable
  | data (d : Datum)

namespace Content

/-- The content of a text. -/
def ofText (text : String) : Content :=
  match read? text with
  | some d => .data d
  | none => .unreadable

/-- The mapping that a document holds; an empty document holds an empty one. -/
def mapping (name : String) : Content → Act Value
  | .missing => Act.refuse (.missingDocument name)
  | .folder => Act.mishap .folder
  | .unreadable => Act.refuse .invalidDocument
  | .data d => do
    match ← d.value with
    | .scalar .null => Act.newDict []
    | .dict a => return .dict a
    | v => Act.refuse (.rootNotMapping name v.typeName)

end Content

end CallContracts.Document
