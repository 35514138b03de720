import CallContracts.Number.Binary64
import CallContracts.Text.Blank
import CallContracts.Text.Digit

/-!
Reading decimal numerals.

A numeral is a sign, digits with perhaps a point among or beside them, and perhaps an exponent. A
single underscore may stand between two digits. `Binary64.parse?` reads a numeral of any script's
digits, or a name of infinity or of the NaN, as a floating-point number.

Main definitions: `Numeral`, `Numeral.takeDigits`, `Numeral.parse`, `Numeral.toBinary64` and
`Binary64.parse?`.
-/

namespace CallContracts

/-- The parts of a numeral: `± coefficient * 10 ^ power`. -/
structure Numeral where
  negative : Bool
  coefficient : Nat
  power : Int
  /-- Whether a point or an exponent was written. -/
  isFractional : Bool
  deriving Repr, DecidableEq

namespace Numeral

/-- A run of digits with single underscores between them: the values and the rest. -/
def takeDigits (value? : Char → Option Nat) : List Char → List Nat × List Char
  | [] => ([], [])
  | [c] =>
    match value? c with
    | some v => ([v], [])
    | none => ([], [c])
  | c :: d :: cs =>
    match value? c with
    | none => ([], c :: d :: cs)
    | some v =>
      if d = '_' then
        match cs with
        | [] => ([v], [d])
        | e :: es =>
          if (value? e).isSome then
            let (vs, rest) := takeDigits value? (e :: es)
            (v :: vs, rest)
          else ([v], d :: e :: es)
      else
        let (vs, rest) := takeDigits value? (d :: cs)
        (v :: vs, rest)

/-- A sign in front of the rest. -/
def takeSign : List Char → Bool × List Char
  | '-' :: cs => (true, cs)
  | '+' :: cs => (false, cs)
  | cs => (false, cs)

/-- The exponent part, if the text goes on with one. -/
def takeExponent (value? : Char → Option Nat) : List Char → Option (Int × List Char)
  | [] => none
  | c :: cs =>
    if c = 'e' || c = 'E' then
      let (negative, cs) := takeSign cs
      match takeDigits value? cs with
      | ([], _) => none
      | (ds, rest) =>
        let n : Int := Text.numberOf ds
        some (if negative then -n else n, rest)
    else none

/-- An unsigned numeral in front of a text, and the rest. -/
def takeUnsigned (value? : Char → Option Nat) (negative : Bool) (cs : List Char) :
    Option (Numeral × List Char) :=
  let (whole, rest) := takeDigits value? cs
  let (pointed, fraction, rest) :=
    match rest with
    | '.' :: more =>
      let (ds, rest) := takeDigits value? more
      (true, ds, rest)
    | _ => (false, [], rest)
  if whole.isEmpty && fraction.isEmpty then none
  else
    let coefficient := Text.numberOf (whole ++ fraction)
    let power : Int := -(fraction.length : Int)
    match takeExponent value? rest with
    | some (e, rest) => some (⟨negative, coefficient, power + e, true⟩, rest)
    | none => some (⟨negative, coefficient, power, pointed⟩, rest)

/-- The whole text as a numeral. -/
def parse (value? : Char → Option Nat) (cs : List Char) : Option Numeral :=
  let (negative, cs) := takeSign cs
  match takeUnsigned value? negative cs with
  | some (n, []) => some n
  | _ => none

/-- The floating-point number nearest to a numeral. -/
def toBinary64 (n : Numeral) : Binary64 :=
  Binary64.ofScientific n.negative n.coefficient n.power

end Numeral

/-- Reads a number between blanks: a numeral, or a name of infinity or of the NaN in any case. -/
def Binary64.parse? (s : String) : Option Binary64 :=
  let cs := Text.trim s.toList
  let (negative, word) := Numeral.takeSign cs
  let word := String.ofList (word.map Char.toLower)
  if word = "inf" || word = "infinity" then some (.infinite negative)
  else if word = "nan" then some .nan
  else (Numeral.parse Text.digitValue? cs).map Numeral.toBinary64

end CallContracts
