import CallContracts.Number.Binary64

/-!
The shortest text of a floating-point number.

A number is written with the fewest decimal digits that read back as the same number; among texts
of that length the nearest one is taken, and of two equally near ones the even one. Digits are
written positionally while the decimal point stands at most sixteen places to the right of the
first digit and at most three zeros to its left, and with an exponent of at least two digits
otherwise.

Main definitions: `Binary64.shortest` and `Binary64.text`.
-/

namespace CallContracts

namespace Binary64

/-! ### Digits -/

/-- The reals that round to `s * 2 ^ e`: both ends, and whether the ends count. -/
def roundingInterval (s : Nat) (e : Int) : Rat × Rat × Bool :=
  let ulp := pow2 e
  let low := if s = leastNormal && leastExponent < e then ulp / 4 else ulp / 2
  ((s : Rat) * ulp - low, (s : Rat) * ulp + ulp / 2, s % 2 == 0)

/-- A power of ten as a fraction. -/
def pow10 (e : Int) : Rat :=
  if 0 ≤ e then Nat.pow 10 e.toNat else 1 / (Nat.pow 10 (-e).toNat : Rat)

/-- The place of the decimal point: `10 ^ (k - 1) ≤ q < 10 ^ k`, looked for from `k` upwards. -/
def pointPlace (q : Rat) : (steps : Nat) → Int → Int
  | 0, k => k
  | steps + 1, k => if q < pow10 k then k else pointPlace q steps (k + 1)

/-- The nearest multiple of `unit` to `q` that lies in the interval, as a multiplier. -/
def nearestIn (interval : Rat × Rat × Bool) (q unit : Rat) : Option Nat :=
  let (lo, hi, closed) := interval
  let inside (n : Nat) : Bool :=
    let x := (n : Rat) * unit
    if closed then lo ≤ x && x ≤ hi else lo < x && x < hi
  let below := (q / unit).floor.toNat
  let above := below + 1
  match inside below, inside above with
  | true, true =>
    let d := q - (below : Rat) * unit
    let u := (above : Rat) * unit - q
    some (if d < u then below else if u < d then above else if below % 2 = 0 then below else above)
  | true, false => some below
  | false, true => some above
  | false, false => none

/-- The fewest digits, tried from `n` on. -/
def fewestDigits (interval : Rat × Rat × Bool) (q : Rat) (k : Int) :
    (tries n : Nat) → Nat × Int
  | 0, n => (0, k - n)
  | tries + 1, n =>
    match nearestIn interval q (pow10 (k - n)) with
    | some c => (c, k - n)
    | none => fewestDigits interval q k tries (n + 1)

/-- Decimal digits and power of ten of a positive finite number, in shortest form. -/
def shortest (s : Nat) (e : Int) : Nat × Int :=
  let q := (s : Rat) * pow2 e
  let k := pointPlace q 700 (-330)
  fewestDigits (roundingInterval s e) q k 17 1

/-! ### Text -/

/-- Positional or exponential writing of digits whose decimal point stands after `point` of
them. -/
def layout (digits : List Char) (point : Int) : String :=
  if point ≤ -4 || 16 < point then
    let mantissa :=
      match digits with
      | [] => "0"
      | [d] => d.toString
      | d :: ds => String.ofList (d :: '.' :: ds)
    let e := point - 1
    let size := toString e.natAbs
    let size := if size.length < 2 then "0" ++ size else size
    mantissa ++ "e" ++ (if e < 0 then "-" else "+") ++ size
  else if point ≤ 0 then
    "0." ++ String.ofList (List.replicate (-point).toNat '0' ++ digits)
  else
    let n := point.toNat
    let whole := digits.take n ++ List.replicate (n - digits.length) '0'
    let fraction := digits.drop n
    String.ofList (whole ++ '.' :: if fraction.isEmpty then ['0'] else fraction)

/-- The digits of a numeral without the zeros at its end. -/
def trimZeros (digits : List Char) : List Char :=
  (digits.reverse.dropWhile (· == '0')).reverse

/-- The shortest text that reads back as the number. -/
def text : Binary64 → String
  | .nan => "nan"
  | .infinite negative => if negative then "-inf" else "inf"
  | .finite negative s e =>
    let sign := if negative then "-" else ""
    if s = 0 then sign ++ "0.0"
    else
      let (c, power) := shortest s e
      let digits := Nat.toDigits 10 c
      sign ++ layout (trimZeros digits) (digits.length + power)

end Binary64

end CallContracts
