import CallContracts.Number.Rounding

/-!
Binary floating-point numbers of 64 bits.

A finite number is a sign, a significand below `2 ^ 53` and a power of two. Every operation
computes its exact value as a fraction and rounds once, to the nearest number and a tie to the even
significand, so no operation of the machine is needed.

Main definitions: `Binary64`, its exact value `Binary64.value?`, the rounding `Binary64.ofRat`, the
arithmetic `add`, `mul` and `mod`, and the interchange word `Binary64.bits`.
-/

namespace CallContracts

/-- A floating-point number. -/
inductive Binary64 where
  | nan
  | infinite (negative : Bool)
  /-- The number `± significand * 2 ^ exponent`. -/
  | finite (negative : Bool) (significand : Nat) (exponent : Int)
  deriving Repr, DecidableEq, Inhabited

namespace Binary64

/-! ### Exact values -/

/-- The least exponent of a finite number. -/
def leastExponent : Int := -1074

/-- The greatest exponent of a finite number. -/
def greatestExponent : Int := 971

/-- The least significand of a number above the least exponent, `2 ^ 52`. -/
def leastNormal : Nat := 0x10000000000000

/-- Zero of either sign. -/
def zero (negative : Bool) : Binary64 := .finite negative 0 leastExponent

/-- A power of two as a fraction. -/
def pow2 (e : Int) : Rat :=
  if 0 ≤ e then Nat.pow 2 e.toNat else 1 / (Nat.pow 2 (-e).toNat : Rat)

/-- The exact value of a finite number. -/
def value? : Binary64 → Option Rat
  | .finite negative s e => some ((if negative then -1 else 1) * (s : Rat) * pow2 e)
  | _ => none

/-- Zero of either sign. -/
def isZero : Binary64 → Bool
  | .finite _ s _ => s == 0
  | _ => false

/-- The sign bit of a number that is no NaN. -/
def isNegative : Binary64 → Bool
  | .nan => false
  | .infinite negative => negative
  | .finite negative _ _ => negative

/-! ### Rounding -/

/-- The quotient `n / (d * 2 ^ e)`, rounded. -/
def scaledQuotient (n d : Nat) (e : Int) : Nat :=
  if 0 ≤ e then Number.roundQuotient n (d * Nat.pow 2 e.toNat)
  else Number.roundQuotient (n * Nat.pow 2 (-e).toNat) d

/-- Whether `n / (d * 2 ^ e)` is below the least significand of a normal number. -/
def isBelowNormal (n d : Nat) (e : Int) : Bool :=
  if 0 ≤ e then n < d * Nat.pow 2 e.toNat * leastNormal
  else n * Nat.pow 2 (-e).toNat < d * leastNormal

/-- The exponent that gives `n / d` a significand of 53 digits, or the least one. -/
def exponentFor (n d : Nat) : Int :=
  let e : Int := (n.log2 : Int) - d.log2 - 52
  max (if isBelowNormal n d e then e - 1 else e) leastExponent

/-- The number nearest to `± n / d`. -/
def ofQuotient (negative : Bool) (n d : Nat) : Binary64 :=
  if n = 0 then zero negative
  else
    let e := exponentFor n d
    let s := scaledQuotient n d e
    let (s, e) := if s = 2 * leastNormal then (leastNormal, e + 1) else (s, e)
    if greatestExponent < e then .infinite negative
    else if s = 0 then zero negative
    else .finite negative s e

/-- The number nearest to a fraction; zero is positive. -/
def ofRat (q : Rat) : Binary64 := ofQuotient (q.num < 0) q.num.natAbs q.den

/-- The number nearest to `± coefficient * 10 ^ power`. -/
def ofScientific (negative : Bool) (coefficient : Nat) (power : Int) : Binary64 :=
  let places : Int := (Nat.toDigits 10 coefficient).length + power
  if coefficient = 0 || places < -330 then zero negative
  else if 330 < places then .infinite negative
  else if 0 ≤ power then ofQuotient negative (coefficient * Nat.pow 10 power.toNat) 1
  else ofQuotient negative coefficient (Nat.pow 10 (-power).toNat)

/-! ### Arithmetic -/

/-- Addition. A sum of zero is negative only if both operands are. -/
def add : Binary64 → Binary64 → Binary64
  | .nan, _ => .nan
  | _, .nan => .nan
  | .infinite a, .infinite b => if a = b then .infinite a else .nan
  | .infinite a, _ => .infinite a
  | _, .infinite b => .infinite b
  | x, y =>
    let q := x.value?.getD 0 + y.value?.getD 0
    if q = 0 then zero (x.isNegative && y.isNegative) else ofRat q

/-- The number of opposite sign. -/
def neg : Binary64 → Binary64
  | .nan => .nan
  | .infinite a => .infinite !a
  | .finite a s e => .finite (!a) s e

/-- Multiplication. -/
def mul (x y : Binary64) : Binary64 :=
  let negative := x.isNegative != y.isNegative
  match x, y with
  | .nan, _ => .nan
  | _, .nan => .nan
  | .infinite _, y => if y.isZero then .nan else .infinite negative
  | x, .infinite _ => if x.isZero then .nan else .infinite negative
  | x, y =>
    let q := x.value?.getD 0 * y.value?.getD 0
    ofQuotient negative q.num.natAbs q.den

/-- The remainder of floored division, which takes the sign of the divisor; the divisor is not
zero. -/
def mod (x y : Binary64) : Binary64 :=
  match x, y with
  | .nan, _ => .nan
  | _, .nan => .nan
  | .infinite _, _ => .nan
  | x, .infinite b => if x.isZero then zero b else if x.isNegative = b then x else .infinite b
  | x, y =>
    let a := x.value?.getD 0
    let b := y.value?.getD 0
    let quotient : Int := Int.tdiv (a / b).num (a / b).den
    let r := a - b * quotient
    if r = 0 then zero y.isNegative
    else if (r.num < 0) = y.isNegative then ofRat r
    else add (ofRat r) y

/-! ### The interchange word -/

/-- The sign bit. -/
def signBit (negative : Bool) : Nat := if negative then 0x8000000000000000 else 0

/-- The 64 bits of a number that is no NaN: sign, biased exponent and fraction. -/
def bits : Binary64 → Nat
  | .nan => 0x7FF8000000000000
  | .infinite negative => signBit negative + 0x7FF * leastNormal
  | .finite negative s e =>
    signBit negative +
      if s < leastNormal then s
      else (e - leastExponent + 1).toNat * leastNormal + (s - leastNormal)

end Binary64

end CallContracts
