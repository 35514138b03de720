import CallContracts.Script.Mishap
import CallContracts.Value.Scalar

/-!
Sums, products and remainders of numbers.

Numbers of different kinds meet in the wider kind: whole numbers in fractions, fractions in
floating-point numbers, those in complex ones. Decimals meet whole numbers only.

Main definitions: `Numeric.add`, `Numeric.mul`, `Numeric.mod` and `Numeric.toWhole`.
-/

namespace CallContracts

namespace Numeric

/-- The floating-point number nearest to a fraction, which must not be too large for one. -/
def roundToFloat (q : Rat) : Except Mishap Binary64 :=
  match Binary64.ofRat q with
  | .infinite _ => .error .overflow
  | x => .ok x

/-- An operation in each kind of number. -/
structure Kinds where
  ints : Int → Int → Except Mishap Int
  fractions : Rat → Rat → Except Mishap Rat
  floats : Binary64 → Binary64 → Except Mishap Binary64
  decimals : Decimal → Decimal → Option Decimal
  complexes : Binary64 × Binary64 → Binary64 × Binary64 → Except Mishap (Binary64 × Binary64)

/-- The floating-point number that a real number counts as. -/
def toFloat : Numeric → Except Mishap Binary64
  | .int n => roundToFloat n
  | .fraction q => roundToFloat q
  | .float x => .ok x
  | .decimal _ | .complex .. => .error .type

/-- The complex number that a number counts as. -/
def toComplex : Numeric → Except Mishap (Binary64 × Binary64)
  | .complex re im => .ok (re, im)
  | x => do return (← x.toFloat, .zero false)

/-- A decimal result, which an operation may lack. -/
def ofDecimal? : Option Decimal → Except Mishap Numeric
  | some d => .ok (.decimal d)
  | none => .error .invalidDecimal

/-- An operation on two numbers, in the kind where they meet. -/
def meet (op : Kinds) : Numeric → Numeric → Except Mishap Numeric
  | .int a, .int b => .int <$> op.ints a b
  | .int a, .fraction b => .fraction <$> op.fractions a b
  | .fraction a, .int b => .fraction <$> op.fractions a b
  | .fraction a, .fraction b => .fraction <$> op.fractions a b
  | .decimal a, .decimal b => ofDecimal? (op.decimals a b)
  | .decimal a, .int b => ofDecimal? (op.decimals a (.ofInt b))
  | .int a, .decimal b => ofDecimal? (op.decimals (.ofInt a) b)
  | .decimal _, _ => .error .type
  | _, .decimal _ => .error .type
  | x, y =>
    match x, y with
    | .complex .., _ => complexes x y
    | _, .complex .. => complexes x y
    | x, y => do
      let a ← x.toFloat
      let b ← y.toFloat
      return .float (← op.floats a b)
where
  /-- The operation on complex numbers. -/
  complexes (x y : Numeric) : Except Mishap Numeric := do
    let a ← x.toComplex
    let b ← y.toComplex
    let c ← op.complexes a b
    return .complex c.1 c.2

/-- The sum of two numbers. -/
def add : Numeric → Numeric → Except Mishap Numeric :=
  meet {
    ints := fun a b => .ok (a + b)
    fractions := fun a b => .ok (a + b)
    floats := fun a b => .ok (a.add b)
    decimals := Decimal.add?
    complexes := fun a b => .ok (a.1.add b.1, a.2.add b.2) }

/-- The product of two numbers. -/
def mul : Numeric → Numeric → Except Mishap Numeric :=
  meet {
    ints := fun a b => .ok (a * b)
    fractions := fun a b => .ok (a * b)
    floats := fun a b => .ok (a.mul b)
    decimals := Decimal.mul?
    complexes := fun a b =>
      .ok ((a.1.mul b.1).add (a.2.mul b.2).neg, (a.1.mul b.2).add (a.2.mul b.1)) }

/-- Whether a number is complex. -/
def isComplex : Numeric → Bool
  | .complex .. => true
  | _ => false

/-- The remainder of floored division, which takes the sign of the divisor; complex numbers have
none. -/
def mod (x y : Numeric) : Except Mishap Numeric :=
  if x.isComplex || y.isComplex then .error .type
  else
    meet {
      ints := fun a b => if b = 0 then .error .zeroDivision else .ok (a.fmod b)
      fractions := fun a b => if b = 0 then .error .zeroDivision else .ok (a - b * (a / b).floor)
      floats := fun a b => if b.isZero then .error .zeroDivision else .ok (a.mod b)
      decimals := Decimal.rem?
      complexes := fun _ _ => .error .type } x y

/-- A fraction without what stands behind the point. -/
def truncate (q : Rat) : Int := Int.tdiv q.num q.den

/-- A real number without what stands behind the point. -/
def toWhole (x : Numeric) : Except Mishap Int :=
  match x.magnitude? with
  | some (.finite q) => .ok (truncate q)
  | some (.infinite _) => .error .overflow
  | some .undefined => .error .value
  | none => .error .type

end Numeric

end CallContracts
