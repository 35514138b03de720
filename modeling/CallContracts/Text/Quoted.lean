import CallContracts.Text.Printable

/-!
Quoted texts, as they stand in error messages.

A text is written between single quotes, or between double quotes when it holds single ones and
no double one. A backslash and the chosen quote are escaped by a backslash, line feed, carriage
return and tab by their letters, and any other unprintable character by its number in two, four
or eight hexadecimal digits. Bytes are written in the same way after a `b`, where everything
outside printable ASCII is unprintable.

Main definitions: `quoted` and `quotedBytes`.
-/

namespace CallContracts.Text

/-! ### Hexadecimal digits -/

/-- The lower-case digit of a number below sixteen. -/
def hexDigit (n : Nat) : Char :=
  if n < 10 then Char.ofNat (48 + n) else Char.ofNat (87 + n)

/-- The last `width` hexadecimal digits of a number, most significant first. -/
def hex : (width : Nat) → Nat → List Char
  | 0, _ => []
  | w + 1, n => hex w (n / 16) ++ [hexDigit (n % 16)]

/-! ### Texts -/

/-- The quote that a text is written in: single, unless only the double one is free. -/
def quoteFor (cs : List Char) : Char :=
  if cs.contains '\'' && !cs.contains '"' then '"' else '\''

/-- The escapes that a text and a byte string share. -/
def shortEscape? (quote c : Char) : Option (List Char) :=
  if c == '\\' || c == quote then some ['\\', c]
  else if c == '\n' then some ['\\', 'n']
  else if c == '\r' then some ['\\', 'r']
  else if c == '\t' then some ['\\', 't']
  else none

/-- One character of a quoted text. -/
def escape (quote c : Char) : List Char :=
  match shortEscape? quote c with
  | some cs => cs
  | none =>
    if isPrintable c then [c]
    else if c.toNat < 0x100 then ['\\', 'x'] ++ hex 2 c.toNat
    else if c.toNat < 0x10000 then ['\\', 'u'] ++ hex 4 c.toNat
    else ['\\', 'U'] ++ hex 8 c.toNat

/-- A text between quotes. -/
def quoted (s : String) : String :=
  let q := quoteFor s.toList
  String.ofList (q :: s.toList.flatMap (escape q) ++ [q])

/-! ### Bytes -/

/-- One byte of a quoted byte string. -/
def escapeByte (quote : Char) (b : UInt8) : List Char :=
  let c := Char.ofNat b.toNat
  match shortEscape? quote c with
  | some cs => cs
  | none => if 32 ≤ b.toNat && b.toNat < 127 then [c] else ['\\', 'x'] ++ hex 2 b.toNat

/-- A byte string between quotes, after a `b`. -/
def quotedBytes (bs : List UInt8) : String :=
  let q := quoteFor (bs.map fun b => Char.ofNat b.toNat)
  String.ofList ('b' :: q :: bs.flatMap (escapeByte q) ++ [q])

end CallContracts.Text
