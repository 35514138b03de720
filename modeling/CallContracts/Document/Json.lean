import CallContracts.Text.Quoted

/-!
Writing outlines as indented JSON.

Every character outside printable ASCII is written as one or two numbers of four hexadecimal
digits. Main definitions: `Json`, `Json.escape` and `Json.render`.
-/

namespace CallContracts.Document

/-- An outline of texts, truth values, lists and named fields. -/
inductive Json where
  | bool (b : Bool)
  | text (s : String)
  | list (items : List Json)
  | object (fields : List (String × Json))

namespace Json

/-- A number of sixteen bits as an escape. -/
def escapeUnit (n : Nat) : List Char := ['\\', 'u'] ++ Text.hex 4 n

/-- One character between quotes. -/
def escape (c : Char) : List Char :=
  if c = '"' then ['\\', '"']
  else if c = '\\' then ['\\', '\\']
  else if c = '\n' then ['\\', 'n']
  else if c = '\r' then ['\\', 'r']
  else if c = '\t' then ['\\', 't']
  else if c = '\x08' then ['\\', 'b']
  else if c = '\x0c' then ['\\', 'f']
  else
    let n := c.toNat
    if 0x20 ≤ n && n < 0x7F then [c]
    else if n < 0x10000 then escapeUnit n
    else
      let m := n - 0x10000
      escapeUnit (0xD800 + m / 0x400) ++ escapeUnit (0xDC00 + m % 0x400)

/-- A text between quotes. -/
def quote (s : String) : String := "\"" ++ String.ofList (s.toList.flatMap escape) ++ "\""

/-- The start of a line so many levels deep. -/
def newLine (level : Nat) : String := "\n" ++ String.ofList (List.replicate (2 * level) ' ')

/-- Items between marks, each on a line of its own. -/
def layOut (first last : String) (level : Nat) (items : List String) : String :=
  if items.isEmpty then first ++ last
  else
    first ++ newLine (level + 1) ++ ("," ++ newLine (level + 1)).intercalate items ++
      newLine level ++ last

mutual

/-- An outline at a level of indentation. -/
def textAt (level : Nat) : Json → String
  | .bool b => if b then "true" else "false"
  | .text s => quote s
  | .list items => layOut "[" "]" level (itemsAt (level + 1) items)
  | .object fields => layOut "\x7b" "\x7d" level (fieldsAt (level + 1) fields)

/-- The items of a list. -/
def itemsAt (level : Nat) : List Json → List String
  | [] => []
  | j :: js => textAt level j :: itemsAt level js

/-- The fields of an object. -/
def fieldsAt (level : Nat) : List (String × Json) → List String
  | [] => []
  | (k, j) :: js => (quote k ++ ": " ++ textAt level j) :: fieldsAt level js

end

/-- An outline, each item on a line of its own, two blanks deeper than what holds it. -/
def render (j : Json) : String := textAt 0 j

end Json

end CallContracts.Document
