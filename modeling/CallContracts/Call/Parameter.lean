/-!
Parameter lists.

A parameter is filled by position, by keyword, or both; a list may also collect the values and the
keywords that are left over. Main definitions: `Parameter`, `declaredCount`, the number of
parameters that a position can fill, `predicateArity`, the number of arguments that a type
predicate is given, and `dropReceiver?`, the list that is left once a receiver fills its first
place.

Main statement: `predicateArity_le`, a predicate is given at most three arguments.
-/

namespace CallContracts

/-- How a parameter can be filled. -/
inductive ParameterKind where
  /-- By position alone. -/
  | positionalOnly
  /-- By position or by keyword. -/
  | positional
  /-- Takes all further positions. -/
  | variadic
  /-- By keyword alone. -/
  | keywordOnly
  /-- Takes all further keywords. -/
  | keywords
  deriving Repr, DecidableEq, Inhabited

/-- A parameter with its default, if it has one. -/
structure Parameter (δ : Type) where
  name : String
  kind : ParameterKind
  default? : Option δ

namespace Parameter

variable {δ : Type}

/-- A parameter that a position can fill. -/
def isPositional (p : Parameter δ) : Bool :=
  match p.kind with
  | .positionalOnly | .positional => true
  | _ => false

/-- A parameter that takes all further positions. -/
def isVariadic (p : Parameter δ) : Bool := p.kind == .variadic

/-- A parameter by position or keyword, without a default. -/
def plain (name : String) : Parameter δ := ⟨name, .positional, none⟩

/-- A parameter by position alone, without a default. -/
def byPosition (name : String) : Parameter δ := ⟨name, .positionalOnly, none⟩

/-- The number of parameters that a position can fill. -/
def declaredCount (ps : List (Parameter δ)) : Nat := ps.countP isPositional

/-- A predicate is asked about a value, a descriptor and the registry. -/
def greatestArity : Nat := 3

/-- The number of arguments that a predicate with these parameters is given. -/
def predicateArity (ps : List (Parameter δ)) : Nat :=
  if ps.any isVariadic then greatestArity else min (declaredCount ps) greatestArity

theorem predicateArity_le (ps : List (Parameter δ)) : predicateArity ps ≤ greatestArity := by
  unfold predicateArity
  split
  · exact Nat.le_refl _
  · exact Nat.min_le_right _ _

/-- What remains to be filled once a receiver has been given; a list that takes no position has
no place for one. -/
def dropReceiver? : List (Parameter δ) → Option (List (Parameter δ))
  | [] => none
  | p :: ps =>
    match p.kind with
    | .positionalOnly | .positional => some ps
    | .variadic => some (p :: ps)
    | _ => none

end Parameter

end CallContracts
