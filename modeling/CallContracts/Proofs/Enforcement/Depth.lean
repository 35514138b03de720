import CallContracts.Proofs.Enforcement.Moves
import CallContracts.Proofs.World.Outcomes

/-!
More depth never changes how a call ends, unless the call ran out of it.

* `Act.Approximates`: one computation ends as another does, or because calls nest too deeply; all
  ways to build a computation keep this;
* `invoke_approximates`: calls to a depth approximate calls to any greater one;
* `Act.Approximates.returns`: so what returns at some depth returns the same at every greater one.
-/

namespace CallContracts

namespace Act

/-- One computation ends as another does, or calls nest too deeply in it. -/
def Approximates ⦃α : Type⦄ (x y : Act α) : Prop :=
  ∀ w, (x w).outcome = .error .exhausted ∨ x w = y w

section approximates

variable {α β : Type} {x y z : Act α} {f g : α → Act β} {w w' : World}

lemma Approximates.refl (x : Act α) : x.Approximates x := fun _ => .inr rfl

lemma Approximates.trans (hxy : x.Approximates y) (hyz : y.Approximates z) :
    x.Approximates z := by
  intro w
  rcases hxy w with h | h
  · exact .inl h
  · rw [h]
    exact hyz w

/-- A sequence runs out of depth in its first step or in its second, or it ends as the other. -/
lemma Approximates.bind (hxy : x.Approximates y) (hfg : ∀ a, (f a).Approximates (g a)) :
    (x >>= f).Approximates (y >>= g) := by
  intro w
  rcases hx : x w with ⟨stop | a, w', es⟩
  · rcases hxy w with hstop | hyw
    · rw [hx] at hstop
      obtain rfl : stop = .exhausted := Except.error.inj hstop
      exact .inl (by rw [bind_of_error hx])
    · rw [hx] at hyw
      exact .inr (by rw [bind_of_error hx, bind_of_error hyw.symm])
  · have hyw : y w = ⟨.ok a, w', es⟩ := by
      rcases hxy w with hstop | hyw
      · simp [hx] at hstop
      · rw [← hyw, hx]
    rw [bind_of_ok hx, bind_of_ok hyw]
    rcases hfg a w' with hstop | heq
    · exact .inl hstop
    · exact .inr (by rw [heq])

/-- Catching a fault catches no lack of depth. -/
lemma Approximates.attempt (hxy : x.Approximates y) :
    (attempt x).Approximates (attempt y) := by
  intro w
  rcases hxy w with hstop | heq
  · have hx : x w = ⟨.error .exhausted, (x w).world, (x w).events⟩ := by rw [← hstop]
    exact .inl (by rw [attempt_of_exhausted hx])
  · exact .inr (by simp only [Act.attempt, heq])

instance : Congruence Approximates where
  refl_of_basic _ := Approximates.refl _
  bind := Approximates.bind
  attempt := Approximates.attempt

/-- What returns a result returns it. -/
lemma Approximates.returns {a : α} (hxy : x.Approximates y) (hx : x.Returns w a w') :
    y.Returns w a w' := by
  rcases hxy w with hstop | heq
  · rw [hx.1] at hstop
    simp at hstop
  · exact hx.of_eq heq.symm

end approximates

end Act

/-! ### Calls to a depth -/

open Act

/-- One level more. -/
lemma invoke_approximates_succ (n : Nat) :
    Invoke.Related Approximates (invoke n) (invoke (n + 1)) := by
  induction n with
  | zero => exact fun v args kw w => .inl rfl
  | succ n ih => exact fun v args kw => Value.congr_apply ih v args kw

/-- **Calls to a depth approximate calls to any greater one.** -/
lemma invoke_approximates {n m : Nat} (h : n ≤ m) :
    Invoke.Related Approximates (invoke n) (invoke m) := by
  induction h with
  | refl => exact fun v args kw => Approximates.refl _
  | @step m _ ih =>
    exact fun v args kw => (ih v args kw).trans (invoke_approximates_succ m v args kw)

end CallContracts
