/-!
Type references, stages and signature trees.

A *descriptor* is one reference to a type: a name, perhaps with a label (`object:point`) or with
arguments (`tuple<number;string>`), and perhaps optional. A *stage* lists the descriptors of one
call; a *tree* lists the stages of a signature, the last of which holds the return type. A tree of
more than two stages describes a curried function.

Main definitions: `Descriptor`, `Stage`, `Tree`, and their written forms `Descriptor.text` and
`Tree.text`. Main statement: `Descriptor.ofParts?_isSome`, a descriptor carries a label or
arguments, never both.
-/

namespace CallContracts

/-! ### Descriptors -/

/-- The name of the empty parameter list. -/
def unitName : String := "()"

/-- The only type that takes a label. -/
def labelledName : String := "object"

/-- What a type reference says besides its name. -/
inductive Detail where
  /-- The name alone. -/
  | plain
  /-- `name:text`. -/
  | label (text : String)
  /-- `name<a;b;…>`. -/
  | arguments (types : List String)
  deriving Repr, DecidableEq, Inhabited

/-- One reference to a type. -/
structure Descriptor where
  name : String
  detail : Detail
  /-- Whether a call may leave the value out. -/
  optional : Bool
  deriving Repr, DecidableEq, Inhabited

namespace Descriptor

/-- The reference by name alone. -/
def ofName (name : String) : Descriptor := ⟨name, .plain, false⟩

/-- The empty parameter list, which is always optional. -/
def unit : Descriptor := ⟨unitName, .plain, true⟩

/-- The label, if there is one. -/
def label? (d : Descriptor) : Option String :=
  match d.detail with
  | .label text => some text
  | _ => none

/-- The arguments, if they are written. -/
def arguments? (d : Descriptor) : Option (List String) :=
  match d.detail with
  | .arguments types => some types
  | _ => none

/-- A descriptor from its parts; a label and arguments exclude each other. -/
def ofParts? (name : String) (label : Option String) (arguments : Option (List String))
    (optional : Bool) : Option Descriptor :=
  match label, arguments with
  | none, none => some ⟨name, .plain, optional⟩
  | some text, none => some ⟨name, .label text, optional⟩
  | none, some types => some ⟨name, .arguments types, optional⟩
  | some _, some _ => none

theorem ofParts?_isSome (name : String) (label : Option String) (arguments : Option (List String))
    (optional : Bool) :
    (ofParts? name label arguments optional).isSome = (label.isNone || arguments.isNone) := by
  cases label <;> cases arguments <;> rfl

/-- The written form without the brackets of an optional reference. -/
def typeText (d : Descriptor) : String :=
  match d.detail with
  | .plain => d.name
  | .label text => d.name ++ ":" ++ text
  | .arguments types => d.name ++ "<" ++ ";".intercalate types ++ ">"

/-- The written form; an optional reference other than `()` stands in brackets. -/
def text (d : Descriptor) : String :=
  if d.optional && d.name != unitName then "[" ++ d.typeText ++ "]" else d.typeText

end Descriptor

/-! ### Stages and trees -/

/-- The descriptors of one call. -/
abbrev Stage := List Descriptor

namespace Stage

/-- The written form: the descriptors with commas between them. -/
def text (s : Stage) : String := ", ".intercalate (s.map Descriptor.text)

/-- The number of values that a call must give. -/
def required (s : Stage) : Nat := s.countP (!·.optional)

end Stage

/-- The stages of a signature, in calling order. -/
structure Tree where
  stages : List Stage
  deriving Repr, DecidableEq, Inhabited

namespace Tree

/-- The written form: the stages with arrows between them. -/
def text (t : Tree) : String := " => ".intercalate (t.stages.map Stage.text)

/-- The number of stages. -/
def size (t : Tree) : Nat := t.stages.length

/-- More than one call leads to the return type. -/
def isCurried (t : Tree) : Bool := 2 < t.size

/-- The stage of the first call. -/
def parameters? (t : Tree) : Option Stage := t.stages.head?

/-- The tree of the value that the first call returns. -/
def remaining (t : Tree) : Tree := ⟨t.stages.drop 1⟩

end Tree

end CallContracts
