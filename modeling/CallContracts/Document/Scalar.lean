import CallContracts.Number.Numeral
import CallContracts.Script.Expr

/-!
What an unquoted word of a document stands for.

A word is null, a truth value, a whole number (decimal, or in base two, eight, sixteen or sixty), a
floating-point number, or else a text. Underscores in numbers do not count.

Main definitions: `Word.truth?`, `Word.whole?`, `Word.float?` and `Word.resolve?`.
-/

namespace CallContracts.Document.Word

/-! ### Words of their own -/

/-- The words for nothing. -/
def isNull (s : String) : Bool := s ∈ ["", "~", "null", "Null", "NULL"]

/-- The words for truth values. -/
def truth? (s : String) : Option Bool :=
  if s ∈ ["yes", "Yes", "YES", "true", "True", "TRUE", "on", "On", "ON"] then some true
  else if s ∈ ["no", "No", "NO", "false", "False", "FALSE", "off", "Off", "OFF"] then some false
  else none

/-! ### Numbers -/

/-- Digits of a base with underscores anywhere among them. -/
def areDigits (base : Nat) (cs : List Char) : Bool :=
  cs.all fun c => c == '_' || (Text.plainDigit? base c).isSome

/-- The number that digits write, underscores left out. -/
def number (base : Nat) (cs : List Char) : Nat :=
  (cs.filterMap (Text.plainDigit? base)).foldl (fun n d => base * n + d) 0

/-- One or two digits below sixty. -/
def isSixtieth : List Char → Bool
  | [c] => (Text.plainDigit? 10 c).isSome
  | [c, d] => (Text.plainDigit? 6 c).isSome && (Text.plainDigit? 10 d).isSome
  | _ => false

/-- Splits at colons. -/
def atColons (cs : List Char) : List (List Char) := cs.splitOn ':'

/-- A number whose parts count in sixties. -/
def sixties (parts : List (List Char)) : Nat :=
  parts.foldl (fun n p => 60 * n + number 10 p) 0

/-- Digits that start with one. -/
def startWithDigit (cs : List Char) : Bool := cs.head?.any fun c => (Text.plainDigit? 10 c).isSome

/-- The whole number that a word without its sign writes. -/
def magnitude? (cs : List Char) : Option Nat :=
  match cs with
  | ['0'] => some 0
  | '0' :: 'b' :: ds => if ds ≠ [] ∧ areDigits 2 ds then some (number 2 ds) else none
  | '0' :: 'x' :: ds => if ds ≠ [] ∧ areDigits 16 ds then some (number 16 ds) else none
  | '0' :: ds => if areDigits 8 ds then some (number 8 ds) else none
  | cs =>
    if !startWithDigit cs then none
    else
      match atColons cs with
      | first :: rest =>
        if areDigits 10 first && rest.all isSixtieth then some (sixties (first :: rest)) else none
      | [] => none

/-- The whole number that a word writes. -/
def whole? (s : String) : Option Int :=
  let (negative, cs) := Numeral.takeSign s.toList
  (magnitude? cs).map fun n => if negative then -(n : Int) else n

/-- The exponent part of a number, which must have a sign. -/
def isExponent : List Char → Bool
  | [] => true
  | e :: sign :: ds =>
    (e == 'e' || e == 'E') && (sign == '+' || sign == '-') && !ds.isEmpty &&
      ds.all fun c => (Text.plainDigit? 10 c).isSome
  | _ => false

/-- Whether a word without its sign writes a number with a point. A number that starts with its
point must not have a sign. -/
def isPointed (signed : Bool) (cs : List Char) : Bool :=
  let isPart (c : Char) : Bool := c == '_' || (Text.plainDigit? 10 c).isSome
  let whole := cs.takeWhile isPart
  match cs.dropWhile isPart with
  | '.' :: rest =>
    isExponent (rest.dropWhile isPart) &&
      (if whole.isEmpty then !signed && startWithDigit rest else startWithDigit whole)
  | _ => false

/-- A whole number as the nearest floating-point number. -/
def rounded (n : Nat) : Binary64 := Binary64.ofQuotient false n 1

/-- Parts that count in sixties, from the last part on: each is multiplied by its weight and added,
and every step rounds. -/
def addParts (total : Binary64) (weight : Nat) : List (List Char) → Binary64
  | [] => total
  | part :: parts =>
    addParts (total.add ((rounded (number 10 part)).mul (rounded weight))) (60 * weight) parts

/-- The number with a point whose whole part counts in sixties. -/
def sixtieths? (cs : List Char) : Option Binary64 :=
  let isPart (c : Char) : Bool := c == '_' || (Text.plainDigit? 10 c).isSome
  match cs.takeWhile (· != '.'), cs.dropWhile (· != '.') with
  | whole, '.' :: fraction =>
    match atColons whole with
    | first :: second :: rest =>
      if startWithDigit first && areDigits 10 first && (second :: rest).all isSixtieth &&
          fraction.all isPart then
        let ds := fraction.filter (· != '_')
        match (first :: second :: rest).reverse with
        | last :: parts =>
          let point := Binary64.ofScientific false (number 10 (last ++ ds)) (-(ds.length : Int))
          some (addParts point 60 parts)
        | [] => none
      else none
    | _ => none
  | _, _ => none

/-- The floating-point number that a word writes. -/
def float? (s : String) : Option Binary64 :=
  let (negative, cs) := Numeral.takeSign s.toList
  let signed := cs.length < s.length
  let word := String.ofList cs
  if word ∈ [".inf", ".Inf", ".INF"] then some (.infinite negative)
  else if !signed && word ∈ [".nan", ".NaN", ".NAN"] then some .nan
  else if isPointed signed cs then
    Binary64.parse? (String.ofList (s.toList.filter (· != '_')))
  else
    (sixtieths? cs).map fun x => if negative then x.neg else x

/-- What a word stands for; a lone equals sign stands for nothing that can be used. -/
def resolve? (s : String) : Option Scalar :=
  if isNull s then some .null
  else
    match truth? s with
    | some b => some (.bool b)
    | none =>
      match float? s with
      | some x => some (.float x)
      | none =>
        match whole? s with
        | some n => some (.int n)
        | none => if s = "=" then none else some (.text s)

end CallContracts.Document.Word
