import CallContracts.Call.Parameter
import CallContracts.Script.Mishap
import CallContracts.Value.Scalar

/-!
Written values and function bodies.

A `Datum` is a value as it is written down: evaluating it makes fresh lists, dictionaries, objects
and functions each time. An `Expr` is the body of a function. The two refer to each other, for a
body may hold a written value and a written function holds a body.

Main definitions: `Intrinsic`, `Datum`, `FunctionSpec`, `Expr`.
-/

namespace CallContracts

/-- The functions that every program has at hand. -/
inductive Intrinsic where
  | len
  | callable
  | bool
  | int
  | max
  | isinstance
  deriving Repr, DecidableEq

/-- The operators on two values, both of which are evaluated first. -/
inductive Operator where
  | add
  | mul
  | mod
  | lt
  | le
  | eq
  /-- The element at a place, or under a key. -/
  | item
  deriving Repr, DecidableEq

/-- What sets one function form apart from another. -/
inductive FunctionForm where
  /-- A function with a name of its own. -/
  | function
  /-- An object that can be called; it has no name. -/
  | object
  deriving Repr, DecidableEq

mutual

/-- A value as it is written down. -/
inductive Datum where
  | scalar (s : Scalar)
  | list (items : List Datum)
  | tuple (items : List Datum)
  | set (items : List Datum)
  | dict (entries : List (Datum × Datum))
  /-- A plain object with a label. -/
  | object (label : String)
  /-- A type reference in parts, which may exclude each other. -/
  | descriptor (name : String) (label : Option String) (arguments : Option (List String))
      (optional : Bool)
  | function (form : FunctionForm) (spec : FunctionSpec)
  /-- A function whose first parameter is given. -/
  | method (receiver : Datum) (spec : FunctionSpec)
  /-- A class whose instances are plain objects labelled with its name. -/
  | kind (name : String) (parameters : List (Parameter Expr))
  | intrinsic (b : Intrinsic)
  /-- The value of a session variable. -/
  | variable (name : String)

/-- The name, parameters and body of a function. -/
structure FunctionSpec where
  name : String
  parameters : List (Parameter Expr)
  body : Expr

/-- The body of a function. -/
inductive Expr where
  | literal (d : Datum)
  /-- A parameter of this function or of an enclosing one. -/
  | variable (name : String)
  | closure (spec : FunctionSpec)
  /-- Only the chosen branch is evaluated. -/
  | branch (condition yes no : Expr)
  | raise (m : Mishap)
  | attribute (e : Expr) (name : String)
  | list (items : List Expr)
  /-- Notes the first value and gives the second. -/
  | trace (noted result : Expr)
  | call (f : Expr) (arguments : List Expr)
  /-- Stores a value under a key, and gives that value. -/
  | store (container key value : Expr)
  | typeName (e : Expr)
  | not (e : Expr)
  | length (e : Expr)
  | binary (op : Operator) (a b : Expr)

end

end CallContracts
