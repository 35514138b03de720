/-!
Splitting at top-level delimiters.

Signatures nest by angle brackets, and a delimiter counts only outside of them. `split` cuts a
text at the delimiters of depth zero; it fails on a `>` that closes nothing and on a `<` that is
never closed. At depth zero the delimiter is looked for before a bracket is, so that the `>` of an
arrow closes nothing.

Main definitions: `Imbalance` and `split`. Main statement: `split_ne_nil`, a split text has at
least one piece.
-/

namespace CallContracts.Signature

/-- Why the brackets of a text do not pair up. -/
inductive Imbalance where
  /-- A `>` at this place closes nothing. -/
  | strayClose (position : Nat)
  /-- A `<` is never closed. -/
  | unclosed
  deriving Repr, DecidableEq

/-- Puts a character in front of the first piece. -/
abbrev extend (c : Char) : List (List Char) → List (List Char) := List.modifyHead (c :: ·)

/-- The pieces of a text that lies `depth` brackets deep and starts at `position`; the first
`skip` characters belong to a delimiter already seen. -/
def scan (delimiter : List Char) (depth skip position : Nat) :
    List Char → Except Imbalance (List (List Char))
  | [] => if depth = 0 then .ok [[]] else .error .unclosed
  | c :: cs =>
    match skip with
    | k + 1 => scan delimiter depth k (position + 1) cs
    | 0 =>
      if depth = 0 ∧ delimiter.isPrefixOf (c :: cs) then
        ([] :: ·) <$> scan delimiter 0 (delimiter.length - 1) (position + 1) cs
      else if c = '<' then
        extend c <$> scan delimiter (depth + 1) 0 (position + 1) cs
      else if c = '>' then
        match depth with
        | 0 => .error (.strayClose position)
        | d + 1 => extend c <$> scan delimiter d 0 (position + 1) cs
      else extend c <$> scan delimiter depth 0 (position + 1) cs

/-- The pieces of a text between the delimiters outside all brackets. -/
def split (delimiter text : List Char) : Except Imbalance (List (List Char)) :=
  scan delimiter 0 0 0 text

theorem extend_eq_nil {c : Char} {pieces : List (List Char)} :
    extend c pieces = [] ↔ pieces = [] := List.modifyHead_eq_nil_iff

theorem scan_ne_nil {delimiter text : List Char} {depth skip position : Nat}
    {pieces : List (List Char)} (h : scan delimiter depth skip position text = .ok pieces) :
    pieces ≠ [] := by
  induction text generalizing depth skip position pieces with
  | nil =>
    unfold scan at h
    split at h
    · cases h
      simp
    · exact absurd h (by simp)
  | cons c cs ih =>
    unfold scan at h
    have step : ∀ {f : List (List Char) → List (List Char)} {d k p},
        (∀ ps, ps ≠ [] → f ps ≠ []) → f <$> scan delimiter d k p cs = .ok pieces →
          pieces ≠ [] := by
      intro f d k p hf hp
      cases hs : scan delimiter d k p cs with
      | error e => simp [hs, Functor.map, Except.map] at hp
      | ok ps =>
        rw [hs] at hp
        have : f ps = pieces := by simpa [Functor.map, Except.map] using hp
        exact this ▸ hf ps (ih hs)
    have longer : ∀ ps, ps ≠ [] → extend c ps ≠ [] := fun _ hps => mt extend_eq_nil.1 hps
    split at h
    · exact ih h
    · split at h
      · exact step (by simp) h
      · split at h
        · exact step longer h
        · split at h
          · split at h
            · exact absurd h (by simp)
            · exact step longer h
          · exact step longer h

theorem split_ne_nil {delimiter text : List Char} {pieces : List (List Char)}
    (h : split delimiter text = .ok pieces) : pieces ≠ [] :=
  scan_ne_nil h

end CallContracts.Signature
