import CallContracts.Number.Numeral

/-!
Decimal numbers of limited precision.

A finite decimal is a sign, a coefficient and a power of ten, so `1.5` and `1.50` differ as texts
and agree as numbers. Results are rounded to 28 digits, a tie to the even one.

Main definitions: `Decimal`, `Decimal.parse?`, `Decimal.text`, `Decimal.value?` and the arithmetic
`Decimal.add?`, `Decimal.mul?`, `Decimal.rem?`.
-/

namespace CallContracts

/-- A decimal number. -/
inductive Decimal where
  | nan
  | infinite (negative : Bool)
  /-- The number `± coefficient * 10 ^ power`. -/
  | finite (negative : Bool) (coefficient : Nat) (power : Int)
  deriving Repr, DecidableEq, Inhabited

namespace Decimal

/-- The exact value of a finite decimal. -/
def value? : Decimal → Option Rat
  | .finite negative c e =>
    let q : Rat :=
      if 0 ≤ e then (c * Nat.pow 10 e.toNat : Nat) else (c : Rat) / (Nat.pow 10 (-e).toNat : Nat)
    some (if negative then -q else q)
  | _ => none

/-- Zero of either sign. -/
def isZero : Decimal → Bool
  | .finite _ c _ => c == 0
  | _ => false

/-- The sign of a decimal that is no NaN. -/
def isNegative : Decimal → Bool
  | .nan => false
  | .infinite negative => negative
  | .finite negative _ _ => negative

/-! ### Text -/

/-- Reads a decimal: a numeral, or a name of infinity or of the NaN in any case. -/
def parse? (s : String) : Option Decimal :=
  let cs := Text.trim s.toList
  let (negative, word) := Numeral.takeSign cs
  let word := String.ofList (word.map Char.toLower)
  if word = "inf" || word = "infinity" then some (.infinite negative)
  else if word = "nan" || word = "snan" then some .nan
  else (Numeral.parse Text.digitValue? cs).map fun n => .finite n.negative n.coefficient n.power

/-- The text of a decimal: positional while the power is not positive and the number not below
one millionth, with an exponent otherwise. -/
def text : Decimal → String
  | .nan => "NaN"
  | .infinite negative => if negative then "-Infinity" else "Infinity"
  | .finite negative c e =>
    let digits := Nat.toDigits 10 c
    let size : Int := digits.length
    let left := e + size
    let point := if e ≤ 0 && -6 < left then left else 1
    let body :=
      if point ≤ 0 then "0." ++ String.ofList (List.replicate (-point).toNat '0' ++ digits)
      else if size ≤ point then
        String.ofList (digits ++ List.replicate (point - size).toNat '0')
      else String.ofList (digits.take point.toNat ++ '.' :: digits.drop point.toNat)
    let exponent :=
      if left = point then ""
      else "E" ++ (if left - point < 0 then "-" else "+") ++ toString (left - point).natAbs
    (if negative then "-" else "") ++ body ++ exponent

/-! ### Arithmetic -/

/-- The number of digits that a result keeps. -/
def precision : Nat := 28

/-- Rounds a coefficient to the precision. -/
def rounded (negative : Bool) (c : Nat) (e : Int) : Decimal :=
  let extra := (Nat.toDigits 10 c).length - precision
  if extra = 0 then .finite negative c e
  else
    let c := Number.roundQuotient c (Nat.pow 10 extra)
    if c = Nat.pow 10 precision then .finite negative (c / 10) (e + extra + 1)
    else .finite negative c (e + extra)

/-- A whole number as a decimal. -/
def ofInt (n : Int) : Decimal := .finite (n < 0) n.natAbs 0

/-- The coefficient of a decimal at a power not above its own, with its sign. -/
def coefficientAt (negative : Bool) (c : Nat) (e power : Int) : Int :=
  let n : Int := (c * Nat.pow 10 (e - power).toNat : Nat)
  if negative then -n else n

/-- Addition, at the lesser of the two powers; opposite infinities have no sum. -/
def add? : Decimal → Decimal → Option Decimal
  | .nan, _ => some .nan
  | _, .nan => some .nan
  | .infinite a, .infinite b => if a = b then some (.infinite a) else none
  | .infinite a, _ => some (.infinite a)
  | _, .infinite b => some (.infinite b)
  | .finite a c e, .finite b d f =>
    let power := min e f
    let n := coefficientAt a c e power + coefficientAt b d f power
    some (rounded (if n = 0 then a && b else n < 0) n.natAbs power)

/-- Multiplication; an infinity and a zero have no product. -/
def mul? : Decimal → Decimal → Option Decimal
  | .nan, _ => some .nan
  | _, .nan => some .nan
  | .infinite a, y => if y.isZero then none else some (.infinite (a != y.isNegative))
  | x, .infinite b => if x.isZero then none else some (.infinite (x.isNegative != b))
  | .finite a c e, .finite b d f => some (rounded (a != b) (c * d) (e + f))

/-- The remainder of truncated division, which takes the sign of the dividend; a zero divisor has
none, nor has an infinite dividend, nor a quotient beyond the precision. -/
def rem? : Decimal → Decimal → Option Decimal
  | .nan, _ => some .nan
  | _, .nan => some .nan
  | .infinite _, _ => none
  | x, .infinite _ => some x
  | .finite a c e, .finite b d f =>
    let power := min e f
    let n := (coefficientAt a c e power).natAbs
    let m := (coefficientAt b d f power).natAbs
    if m = 0 || Nat.pow 10 precision ≤ n / m then none
    else some (rounded a (n % m) power)

end Decimal

end CallContracts
