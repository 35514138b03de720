import CallContracts.Script.Mishap
import CallContracts.Value.Heap

/-!
What a program asks of the language around it.

Two operations come with the language and not with the library: to search texts for a pattern, and
to evaluate a literal. A host carries both out. It is part of every world and no computation changes
it, so what is proved of all worlds holds whatever the host answers.

Main definitions: `LiteralFault` and `Host`.
-/

namespace CallContracts

/-- Why a text has no value as a literal. -/
inductive LiteralFault where
  /-- The text is no expression. -/
  | malformed
  /-- The evaluation fails: the expression is no literal, or a part of it has no value. -/
  | mishap (m : Mishap)
  /-- The expression nests too deeply. -/
  | nesting
  deriving Repr, DecidableEq

/-- What the language around a program answers. -/
structure Host where
  /-- Reads a pattern, and tells in which texts it occurs. -/
  search : String → Except Mishap (String → Bool)
  /-- The value of a literal, and the heap with its lists and dictionaries. -/
  evaluate : String → Heap → Except LiteralFault (Value × Heap)

end CallContracts
