import CallContracts.Proofs.Enforcement.Depth
import CallContracts.Proofs.World.Traits

/-!
Computations that finish.

A computation to some depth finishes if it ends with a result or with a fault. Calls that nest too
deeply are neither, so a computation that finishes needs no more depth than it has.

* `Act.Finishes`: from one world, a computation finishes and leaves the world as it is, a trait;
* `Act.Finishes.mono`: what finishes at some depth finishes at every greater one.
-/

namespace CallContracts.Act

variable {α β : Type} {x y : Act α} {f : α → Act β} {w : World}

/-- From this world a computation ends with a result or with a fault, whatever it writes to the log,
and leaves the world as it is. -/
def Finishes (x : Act α) (w : World) : Prop :=
  ∃ (ends : Except Fault α) (es : List Event), x w = ⟨ends.mapError .fault, w, es⟩

namespace Finishes

/-- A sequence finishes if its first step does, and its second one after what the first returns. -/
lemma bind (hx : x.Finishes w) (hf : ∀ a, (x w).outcome = .ok a → (f a).Finishes w) :
    (x >>= f).Finishes w := by
  obtain ⟨e | a, es, hxw⟩ := hx
  · exact ⟨.error e, es, bind_of_error hxw⟩
  · obtain ⟨ends, es', hfa⟩ := hf a (by rw [hxw]; rfl)
    exact ⟨ends, es ++ es', by rw [bind_of_ok hxw, hfa]⟩

lemma attempt (hx : x.Finishes w) : (attempt x).Finishes w := by
  obtain ⟨e | a, es, hxw⟩ := hx
  · exact ⟨.ok (.error e), es, attempt_of_fault hxw⟩
  · exact ⟨.ok (.ok a), es, attempt_of_ok hxw⟩

instance : Trait @Finishes where
  of_eq heq h := by
    rw [Finishes, ← heq]
    exact h
  of_ends ends es h _ := ⟨ends, es, h⟩
  bind := bind
  attempt := attempt

/-- **What finishes at some depth** finishes at every greater one. -/
lemma mono (hx : x.Finishes w) (hxy : x.Approximates y) : y.Finishes w := by
  obtain ⟨ends, es, hxw⟩ := hx
  rcases hxy w with hstop | heq
  · rw [hxw] at hstop
    cases ends <;> simp [Except.mapError] at hstop
  · exact ⟨ends, es, heq ▸ hxw⟩

/-- What finishes without a fault returns. -/
lemma exists_returns (hx : x.Finishes w) (hfault : ∀ e, (x w).outcome ≠ .error (.fault e)) :
    ∃ a, x.Returns w a w := by
  obtain ⟨e | a, es, hxw⟩ := hx
  · exact absurd (by rw [hxw]; rfl) (hfault e)
  · exact ⟨a, returns_of_eq hxw⟩

end Finishes

end CallContracts.Act
