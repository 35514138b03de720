import CallContracts.Proofs.World.Outcomes

/-!
Computations that a program cannot tell apart.

* `Result.Matches ρ`: two results leave the same world and have shown the same views, and they end
  with the same fault or with values that `ρ` relates; what they have written to the log may differ;
* `Result.matches_bind`: sequences match step by step;
* `Result.rethrow_matches`: catching a fault only to throw it again makes no difference.
-/

namespace CallContracts

variable {α β γ δ : Type}

/-- The view that an event shows, unless it is a record of the log. -/
def Event.traced? : Event → Option View
  | .traced v => some v
  | .record _ => none

/-- The same fault, or related values. -/
def OutcomesMatch (ρ : α → β → Prop) : Except Stop α → Except Stop β → Prop
  | .ok a, .ok b => ρ a b
  | .error stop, .error stop' => stop = stop'
  | _, _ => False

namespace Result

/-- Two results that differ in related values and in the log alone. -/
structure Matches (ρ : α → β → Prop) (x : Result α) (y : Result β) : Prop where
  outcome : OutcomesMatch ρ x.outcome y.outcome
  world : x.world = y.world
  traces : x.events.filterMap Event.traced? = y.events.filterMap Event.traced?

lemma Matches.refl {ρ : α → α → Prop} (hρ : ∀ a, ρ a a) (x : Result α) : x.Matches ρ x := by
  refine ⟨?_, rfl, rfl⟩
  rcases x.outcome with stop | a
  · exact rfl
  · exact hρ a

/-- Sequences match step by step. -/
lemma matches_bind {ρ : α → β → Prop} {σ : γ → δ → Prop} {x : Act α} {y : Act β} {f : α → Act γ}
    {g : β → Act δ} {w : World} (hxy : (x w).Matches ρ (y w))
    (hfg : ∀ a b, (x w).outcome = .ok a → ρ a b →
      (f a (x w).world).Matches σ (g b (x w).world)) :
    ((x >>= f) w).Matches σ ((y >>= g) w) := by
  obtain ⟨houtcome, hworld, htraces⟩ := hxy
  rcases hx : x w with ⟨stop | a, w', es⟩
  · rcases hy : y w with ⟨stop' | b, w'', es'⟩
    · rw [Act.bind_of_error hx, Act.bind_of_error hy]
      rw [hx, hy] at houtcome hworld htraces
      exact ⟨houtcome, hworld, htraces⟩
    · rw [hx, hy] at houtcome
      exact houtcome.elim
  · rcases hy : y w with ⟨stop' | b, w'', es'⟩
    · rw [hx, hy] at houtcome
      exact houtcome.elim
    · rw [hx, hy] at houtcome hworld htraces
      obtain rfl : w' = w'' := hworld
      have hrest := hfg a b (by rw [hx]) houtcome
      rw [hx] at hrest
      rw [Act.bind_of_ok hx, Act.bind_of_ok hy]
      refine ⟨hrest.outcome, hrest.world, ?_⟩
      simp only [List.filterMap_append, hrest.traces]
      rw [show es.filterMap Event.traced? = es'.filterMap Event.traced? from htraces]

/-- A fault that is caught, and thrown again after records in the log, is as good as never
caught. -/
lemma rethrow_matches {ρ : β → γ → Prop} {x : Act α} {f : Except Fault α → Act β} {g : α → Act γ}
    (hok : ∀ a w, (f (.ok a) w).Matches ρ (g a w))
    (hfault : ∀ e w, (f (.error e) w).Matches ρ ((Act.throw e : Act γ) w)) (w : World) :
    ((Act.attempt x >>= f) w).Matches ρ ((x >>= g) w) := by
  rcases hx : x w with ⟨(e | -) | a, w', es⟩
  · rw [Act.bind_of_ok (Act.attempt_of_fault hx), Act.bind_of_error hx]
    have h := hfault e w'
    refine ⟨h.outcome, h.world, ?_⟩
    simp [h.traces, Act.throw]
  · rw [Act.bind_of_error (Act.attempt_of_exhausted hx), Act.bind_of_error hx]
    exact ⟨rfl, rfl, rfl⟩
  · rw [Act.bind_of_ok (Act.attempt_of_ok hx), Act.bind_of_ok hx]
    have h := hok a w'
    refine ⟨h.outcome, h.world, ?_⟩
    simp [h.traces]

end Result

end CallContracts
