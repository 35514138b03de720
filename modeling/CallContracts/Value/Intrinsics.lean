import CallContracts.Number.Numeral
import CallContracts.Value.Order

/-!
The intrinsic functions.

Main definitions: `Value.toWhole`, the whole number that a value is turned into, `Value.greatest`,
the greatest of several values, `Value.isInstance`, and `Intrinsic.answer`.
-/

namespace CallContracts

namespace Value

/-! ### Whole numbers -/

/-- The whole number that a text writes in a base, between blanks; digits of any script. -/
def wholeOfText (cs : List Char) : Except Mishap Int :=
  let (negative, body) := Numeral.takeSign (Text.trim cs)
  match Numeral.takeDigits Text.digitValue? body with
  | ([], _) => .error .value
  | (digits, []) =>
    let n : Int := Text.numberOf digits
    .ok (if negative then -n else n)
  | _ => .error .value

/-- The whole number that a value is turned into. -/
def toWhole : Value → Except Mishap Int
  | .scalar (.text s) => wholeOfText s.toList
  | .scalar (.bytes bs) => wholeOfText (bs.map fun b => Char.ofNat b.toNat)
  | v =>
    match v.number? with
    | some x => x.toWhole
    | none => .error .type

/-! ### The greatest value -/

/-- The greatest of several values, the first of equal ones. -/
def greatestFrom (h : Heap) (best : Value) : List Value → Except Mishap Value
  | [] => .ok best
  | v :: vs => do
    let higher ← best.precedes h true v
    greatestFrom h (if higher then v else best) vs

/-- The greatest of several values, of which there must be one. -/
def greatest (h : Heap) : List Value → Except Mishap Value
  | [] => .error .value
  | v :: vs => greatestFrom h v vs

/-! ### Classes -/

/-- Whether a value is an instance of a class, or of one of several. -/
def isInstanceWithin : Nat → Value → Value → Except Mishap Bool
  | 0, _, _ => .error .type
  | n + 1, v, kind =>
    let rec any : List Value → Except Mishap Bool
      | [] => .ok false
      | k :: ks => do if ← isInstanceWithin n v k then return true else any ks
    match kind with
    | .tuple kinds => any kinds
    | .function (.kind serial _ _) =>
      match v with
      | .object _ _ kind? => .ok (kind? == some serial)
      | _ => .ok false
    | .function (.intrinsic .bool) => .ok v.isBool
    | .function (.intrinsic .int) => .ok v.whole?.isSome
    | _ => .error .type

/-- Whether a value is an instance of a class, or of one of several. -/
def isInstance (v kind : Value) : Except Mishap Bool := isInstanceWithin nestingLimit v kind

end Value

/-- What an intrinsic function answers; none of them takes keywords. -/
def Intrinsic.answer (b : Intrinsic) (args : List Value) : Act Value := do
  let h ← Act.heap
  match b, args with
  | .len, [v] => do return .int (← Act.orMishap .type (v.length? h))
  | .callable, [v] => return .bool v.isCallable
  | .bool, [] => return .bool false
  | .bool, [v] => return .bool (v.truth h)
  | .int, [] => return .int 0
  | .int, [v] => do return .int (← Value.orMishap v.toWhole)
  | .max, [v] => do
    let items ← Act.orMishap .type (v.items? h)
    Value.orMishap (Value.greatest h items)
  | .max, v :: w :: vs => Value.orMishap (Value.greatest h (v :: w :: vs))
  | .isinstance, [v, kind] => do return .bool (← Value.orMishap (v.isInstance kind))
  | _, _ => Act.mishap .type

end CallContracts
