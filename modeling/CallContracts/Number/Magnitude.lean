import CallContracts.Number.Decimal

/-!
The real line with its infinities and one undefined point.

Numbers of different kinds are compared by their exact values, so no comparison rounds. Main
definitions: `Magnitude`, its order `Magnitude.lt` and `Magnitude.eq`, and the magnitudes of
floating-point numbers and decimals.
-/

namespace CallContracts

/-- The exact value of a real number of any kind. -/
inductive Magnitude where
  | undefined
  | infinite (negative : Bool)
  | finite (q : Rat)
  deriving Repr, DecidableEq

namespace Magnitude

/-- Strictly below; the undefined point is below nothing. -/
def lt : Magnitude → Magnitude → Bool
  | .undefined, _ => false
  | _, .undefined => false
  | .infinite a, .infinite b => a && !b
  | .infinite a, .finite _ => a
  | .finite _, .infinite b => !b
  | .finite p, .finite q => p < q

/-- Equal; the undefined point equals nothing. -/
def eq : Magnitude → Magnitude → Bool
  | .undefined, _ => false
  | x, y => x == y

/-- Below or equal. -/
def le (x y : Magnitude) : Bool := x.lt y || x.eq y

end Magnitude

/-- The exact value of a floating-point number. -/
def Binary64.magnitude : Binary64 → Magnitude
  | .nan => .undefined
  | .infinite negative => .infinite negative
  | x => match x.value? with
    | some q => .finite q
    | none => .undefined

/-- The exact value of a decimal. -/
def Decimal.magnitude : Decimal → Magnitude
  | .nan => .undefined
  | .infinite negative => .infinite negative
  | x => match x.value? with
    | some q => .finite q
    | none => .undefined

end CallContracts
