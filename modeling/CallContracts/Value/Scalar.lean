import CallContracts.Number.Magnitude
import CallContracts.Number.Shortest
import CallContracts.Text.Quoted

/-!
Scalars: the values without parts.

Main definitions: `Scalar`, the name of a scalar's type `Scalar.typeName`, its number
`Scalar.number?`, its truth `Scalar.truth`, and its text in messages `Scalar.repr`.
-/

namespace CallContracts

/-- A member of a plain enumeration. -/
inductive Colour where
  | red
  | green
  deriving Repr, DecidableEq

/-- A member of an enumeration whose members count as numbers. -/
inductive Level where
  | low
  | high
  deriving Repr, DecidableEq

/-- The number that a level counts as. -/
def Level.rank : Level → Int
  | .low => 1
  | .high => 7

/-- A value without parts. -/
inductive Scalar where
  | null
  | bool (b : Bool)
  | int (n : Int)
  | float (x : Binary64)
  | text (s : String)
  | bytes (bs : List UInt8)
  | fraction (q : Rat)
  | decimal (d : Decimal)
  | complex (re im : Binary64)
  | colour (c : Colour)
  | level (l : Level)
  /-- Stands for a parameter that a call leaves out. -/
  | absent
  /-- The literal `...`. -/
  | ellipsis
  deriving DecidableEq

/-! ### Numbers -/

/-- A number of any kind. -/
inductive Numeric where
  | int (n : Int)
  | fraction (q : Rat)
  | float (x : Binary64)
  | decimal (d : Decimal)
  | complex (re im : Binary64)
  deriving DecidableEq

namespace Numeric

/-- The exact value of a number on the real line. -/
def magnitude? : Numeric → Option Magnitude
  | .int n => some (.finite n)
  | .fraction q => some (.finite q)
  | .float x => some x.magnitude
  | .decimal d => some d.magnitude
  | .complex _ _ => none

/-- A number back as a scalar. -/
def toScalar : Numeric → Scalar
  | .int n => .int n
  | .fraction q => .fraction q
  | .float x => .float x
  | .decimal d => .decimal d
  | .complex re im => .complex re im

/-- Equality of numbers by their exact values. -/
def eq : Numeric → Numeric → Bool
  | .complex a b, .complex c d => a.magnitude.eq c.magnitude && b.magnitude.eq d.magnitude
  | .complex a b, y => b.isZero && (y.magnitude?.any fun m => a.magnitude.eq m)
  | x, .complex c d => d.isZero && (x.magnitude?.any fun m => m.eq c.magnitude)
  | x, y => match x.magnitude?, y.magnitude? with
    | some m, some n => m.eq n
    | _, _ => false

end Numeric

namespace Scalar

/-- The number that a scalar counts as: truth values count as 0 and 1, levels as their rank. -/
def number? : Scalar → Option Numeric
  | .bool b => some (.int (if b then 1 else 0))
  | .int n => some (.int n)
  | .float x => some (.float x)
  | .fraction q => some (.fraction q)
  | .decimal d => some (.decimal d)
  | .complex re im => some (.complex re im)
  | .level l => some (.int l.rank)
  | _ => none

/-- The whole number that a scalar counts as. -/
def whole? (s : Scalar) : Option Int :=
  match s.number? with
  | some (.int n) => some n
  | _ => none

/-- Equality of scalars: numbers by value, all others by kind and content. -/
def eq (a b : Scalar) : Bool :=
  match a.number?, b.number? with
  | some x, some y => x.eq y
  | none, none => a = b
  | _, _ => false

/-! ### Type names and truth -/

/-- The name of a scalar's type. -/
def typeName : Scalar → String
  | .null => "NoneType"
  | .bool _ => "bool"
  | .int _ => "int"
  | .float _ => "float"
  | .text _ => "str"
  | .bytes _ => "bytes"
  | .fraction _ => "Fraction"
  | .decimal _ => "Decimal"
  | .complex _ _ => "complex"
  | .colour _ => "Colour"
  | .level _ => "Level"
  | .absent => "_Absent"
  | .ellipsis => "ellipsis"

/-- A scalar is false when it is null, zero or empty. -/
def truth : Scalar → Bool
  | .null => false
  | .bool b => b
  | .int n => n != 0
  | .float x => !x.isZero
  | .text s => s != ""
  | .bytes bs => !bs.isEmpty
  | .fraction q => q != 0
  | .decimal d => !d.isZero
  | .complex re im => !(re.isZero && im.isZero)
  | .colour _ | .level _ | .absent | .ellipsis => true

/-! ### Texts -/

/-- A part of a complex number: a whole one is written without a point. -/
def partText (x : Binary64) : String :=
  let s := x.text
  if s.endsWith ".0" then (s.dropEnd 2).toString else s

/-- A complex number: the imaginary part alone when the real part is a positive zero, and both
in parentheses otherwise. -/
def complexText (re im : Binary64) : String :=
  let i := partText im ++ "j"
  if re.isZero && !re.isNegative then i
  else "(" ++ partText re ++ (if i.startsWith "-" then "" else "+") ++ i ++ ")"

/-- The text of a scalar inside a message that quotes it. -/
def repr : Scalar → String
  | .null => "None"
  | .bool b => if b then "True" else "False"
  | .int n => toString n
  | .float x => x.text
  | .text s => Text.quoted s
  | .bytes bs => Text.quotedBytes bs
  | .fraction q => s!"Fraction({q.num}, {q.den})"
  | .decimal d => s!"Decimal('{d.text}')"
  | .complex re im => complexText re im
  | .colour .red => "<Colour.RED: 1>"
  | .colour .green => "<Colour.GREEN: 2>"
  | .level .low => "<Level.LOW: 1>"
  | .level .high => "<Level.HIGH: 7>"
  | .absent => "ABSENT"
  | .ellipsis => "Ellipsis"

/-- The text of a scalar that stands bare in a message. -/
def bare : Scalar → String
  | .text s => s
  | .fraction q => if q.den = 1 then toString q.num else s!"{q.num}/{q.den}"
  | .decimal d => d.text
  | .colour .red => "Colour.RED"
  | .colour .green => "Colour.GREEN"
  | .level l => toString l.rank
  | s => s.repr

end Scalar

end CallContracts
