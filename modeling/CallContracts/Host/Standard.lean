import CallContracts.Host.Basic
import CallContracts.Host.Reader
import CallContracts.Pattern.Parser

/-!
A host to run programs on.

It searches and reads as the language documents it, as far as `PatternText` and `LiteralText` go:
characters by name are left out, and so are options that depend on a locale; a text with any other
expression in it than those of literals is malformed. Main definition: `Host.standard`.
-/

namespace CallContracts

/-- How deeply an expression may nest. The language counts the calls around the evaluation too, so
the limit is not exact. -/
def Literal.greatestDepth : Nat := 2900

/-- The value of a text that reads as a literal. -/
def LiteralText.evaluate (text : String) (h : Heap) : Except LiteralFault (Value × Heap) :=
  match read? text with
  | none => .error .malformed
  | some e =>
    if Literal.greatestDepth < e.depth then .error .nesting
    else (e.evaluate.run h).mapError .mishap

/-- The host that searches and reads as the language documents it. -/
def Host.standard : Host where
  search := Pattern.search
  evaluate := LiteralText.evaluate

end CallContracts
