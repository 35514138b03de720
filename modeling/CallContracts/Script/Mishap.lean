/-!
What goes wrong when values are used in a way that they do not support.

A mishap has a kind and no further text: `Mishap` lists the kinds.
-/

namespace CallContracts

/-- The kind of a failed operation on values. -/
inductive Mishap where
  /-- A value of the wrong type, or a call that does not fit. -/
  | type
  /-- A value of the right type that makes no sense. -/
  | value
  /-- A key that a mapping does not hold. -/
  | key
  /-- A place outside a sequence. -/
  | index
  /-- An attribute that a value does not have, or that cannot be set. -/
  | attribute
  /-- A number too large for its kind. -/
  | overflow
  /-- A division by zero. -/
  | zeroDivision
  /-- A failure that a function body announces. -/
  | announced
  /-- A pattern that cannot be read. -/
  | pattern
  /-- An assignment to a frozen value. -/
  | frozen
  /-- A session variable that nobody set. -/
  | noVariable
  /-- A name that no enclosing function binds. -/
  | unboundName
  /-- A decimal operation without a result. -/
  | invalidDecimal
  /-- A folder where a document is needed. -/
  | folder
  deriving Repr, DecidableEq

end CallContracts
