import CallContracts.Proofs.Enforcement.Quiet

/-!
Results within reach.

A computation that runs to some depth reaches a result if it returns it, or would do so if calls
could nest more deeply.

* `Act.Reaches`, and `Act.Reaches.bind`: a sequence reaches what its steps reach, one after the
  other;
* `Act.reaches_all` and `Act.reaches_any`: what holds of all items of a list in one world, or of
  some item, is within reach in another world if it is so for each item.
-/

namespace CallContracts.Act

variable {α β : Type} {x : Act α} {f : α → Act β} {g : α → Act Bool} {w w' w₁ : World} {a : α}
  {b : β} {as : List α}

/-- From this world a computation returns a result, unless calls nest too deeply. -/
def Reaches (x : Act α) (w : World) (a : α) : Prop :=
  (x w).outcome = .ok a ∨ (x w).outcome = .error .exhausted

lemma Returns.reaches (h : x.Returns w a w₁) : x.Reaches w a := .inl h.1

lemma reaches_pure (a : α) : (pure a : Act α).Reaches w a := .inl rfl

namespace Reaches

/-- What is within reach is returned by a computation that returns something. -/
lemma eq_of_returns {a' : α} (h : x.Reaches w a) (hx : x.Returns w a' w₁) : a' = a := by
  rcases h with h | h
  · exact Except.ok.inj (hx.1.symm.trans h)
  · rw [hx.1] at h
    simp at h

/-- **A sequence reaches what its steps reach**, one after the other. -/
lemma bind (hx : x.Reaches w a) (hf : ∀ w₁, x.Returns w a w₁ → (f a).Reaches w₁ b) :
    (x >>= f).Reaches w b := by
  rcases hx with hx | hx
  · have hsecond := hf _ ⟨hx, rfl⟩
    rwa [Reaches, outcome_bind, hx]
  · refine .inr ?_
    rw [outcome_bind, hx]
    rfl

/-- A quiet step leaves the world for the next one. -/
lemma bind_quiet (hx : x.Reaches w a) (hquiet : x.Quiet w) (hf : (f a).Reaches w b) :
    (x >>= f).Reaches w b :=
  hx.bind fun _ h => hquiet.world_eq h ▸ hf

lemma attempt (h : x.Reaches w a) : (Act.attempt x).Reaches w (.ok a) := by
  rcases hx : x w with ⟨(e | -) | a', w₁, es⟩
  · simp [Reaches, hx] at h
  · exact .inr (by rw [attempt_of_exhausted hx])
  · obtain rfl : a' = a := by simpa [Reaches, hx] using h
    exact .inl (by rw [attempt_of_ok hx])

end Reaches

/-- What looks at the heap and the host alone returns the same in a world with the same heap and
host. -/
lemma Inspects.reaches (h : Inspects x) (hheap : w'.heap = w.heap) (hhost : w'.host = w.host)
    (hx : x.Returns w a w₁) : x.Reaches w' a := by
  obtain ⟨ends, hends⟩ := h
  have hreturns := hx.1
  rw [hends] at hreturns
  exact .inl (by rw [hends, hheap, hhost]; exact hreturns)

/-! ### Lists -/

section lists

variable (hquiet : ∀ a, (g a).Quiet w) (hquiet' : ∀ a, (g a).Quiet w')
  (hreach : ∀ a, (g a).Returns w true w → (g a).Reaches w' true)

include hquiet hquiet' hreach

/-- What holds of all items in one world. -/
lemma reaches_all (h : (all g as).Returns w true w₁) : (all g as).Reaches w' true := by
  induction as with
  | nil => exact reaches_pure true
  | cons a as ih =>
    obtain ⟨b, w₂, hfirst, hrest⟩ := returns_bind_iff.1 h
    obtain rfl := (hquiet a).world_eq hfirst
    cases b with
    | false => exact absurd (returns_pure_iff.1 hrest).1 Bool.false_ne_true
    | true => exact (hreach a hfirst).bind_quiet (hquiet' a) (ih hrest)

/-- What holds of some item in one world, if the items before it are asked without a fault in the
other. -/
lemma reaches_any (hends : ∀ a, (g a).Returns w false w → ∃ b, (g a).Reaches w' b)
    (h : (any g as).Returns w true w₁) : (any g as).Reaches w' true := by
  induction as with
  | nil => exact absurd (returns_pure_iff.1 h).1 Bool.false_ne_true
  | cons a as ih =>
    obtain ⟨b, w₂, hfirst, hrest⟩ := returns_bind_iff.1 h
    obtain rfl := (hquiet a).world_eq hfirst
    cases b with
    | true => exact (hreach a hfirst).bind_quiet (hquiet' a) (reaches_pure true)
    | false =>
      obtain ⟨b, hb⟩ := hends a hfirst
      refine hb.bind_quiet (hquiet' a) ?_
      cases b with
      | true => exact reaches_pure true
      | false => exact ih hrest

end lists

end CallContracts.Act
