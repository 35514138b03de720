import Mathlib.Tactic
import CallContracts.World.Act

/-!
How computations end, step by step.

* `Act.bind_of_ok` and `Act.bind_of_error`: what comes after a step that ends in one way or the
  other, and `Act.outcome_bind`: how a sequence ends;
* `Act.exists_of_bind_ok`: what a sequence that ends with a result has gone through;
* `Act.attempt_of_ok` and `Act.attempt_of_fault`: what a caught fault becomes;
* `Act.Returns`: a computation ends with a result, and one law for each way to build a computation
  that says when.
-/

namespace CallContracts.Act

variable {α β : Type} {x : Act α} {f : α → Act β} {w w' : World} {es : List Event}

lemma bind_of_ok {a : α} (h : x w = ⟨.ok a, w', es⟩) :
    (x >>= f) w = ⟨(f a w').outcome, (f a w').world, es ++ (f a w').events⟩ := by
  simp only [bind, Act.bind, h]

lemma bind_of_error {stop : Stop} (h : x w = ⟨.error stop, w', es⟩) :
    (x >>= f) w = ⟨.error stop, w', es⟩ := by
  simp only [bind, Act.bind, h]

/-- A step that shows nothing and changes nothing. -/
lemma bind_of_pure {a : α} (h : x w = ⟨.ok a, w, []⟩) : (x >>= f) w = f a w := by
  rw [bind_of_ok h]
  simp

/-- How a sequence ends: as its first step does, or as what comes after it. -/
lemma outcome_bind (x : Act α) (f : α → Act β) (w : World) :
    ((x >>= f) w).outcome = (x w).outcome >>= fun a => (f a (x w).world).outcome := by
  rcases hx : x w with ⟨stop | a, w', es⟩
  · rw [bind_of_error hx]
    rfl
  · rw [bind_of_ok hx]
    rfl

/-- A sequence ends with a result only if its first step does. -/
lemma exists_of_bind_ok {b : β} (h : ((x >>= f) w).outcome = .ok b) :
    ∃ a w' es, x w = ⟨.ok a, w', es⟩ ∧ (f a w').outcome = .ok b ∧
      ((x >>= f) w).world = (f a w').world := by
  rcases hx : x w with ⟨stop | a, w', es⟩
  · rw [bind_of_error hx] at h
    simp at h
  · rw [bind_of_ok hx] at h ⊢
    exact ⟨a, w', es, rfl, h, rfl⟩

/-- A step whose result is wrapped up. -/
lemma exists_of_bind_pure_ok {g : α → β} {b : β}
    (h : ((x >>= fun a => pure (g a)) w).outcome = .ok b) : ∃ a, g a = b := by
  obtain ⟨a, _, _, -, hpure, -⟩ := exists_of_bind_ok h
  exact ⟨a, Except.ok.inj hpure⟩

lemma attempt_of_ok {a : α} (h : x w = ⟨.ok a, w', es⟩) :
    attempt x w = ⟨.ok (.ok a), w', es⟩ := by
  simp only [attempt, h]

lemma attempt_of_fault {e : Fault} (h : x w = ⟨.error (.fault e), w', es⟩) :
    attempt x w = ⟨.ok (.error e), w', es⟩ := by
  simp only [attempt, h]

lemma attempt_of_exhausted (h : x w = ⟨.error .exhausted, w', es⟩) :
    attempt x w = ⟨.error .exhausted, w', es⟩ := by
  simp only [attempt, h]

/-- What a caught computation with a result was. -/
lemma exists_of_attempt_ok {a : Except Fault α} (h : attempt x w = ⟨.ok a, w', es⟩) :
    x w = ⟨a.mapError .fault, w', es⟩ := by
  rcases hx : x w with ⟨(e | -) | b, w₁, es₁⟩
  · rw [attempt_of_fault hx] at h
    simp only [Result.mk.injEq, Except.ok.injEq] at h
    obtain ⟨rfl, rfl, rfl⟩ := h
    rfl
  · rw [attempt_of_exhausted hx] at h
    simp at h
  · rw [attempt_of_ok hx] at h
    simp only [Result.mk.injEq, Except.ok.injEq] at h
    obtain ⟨rfl, rfl, rfl⟩ := h
    rfl

lemma orMishap_eq_ok {m : Mishap} {a? : Option α} {a : α}
    (h : (orMishap m a? w).outcome = .ok a) : a? = some a := by
  cases a? with
  | none => simp [orMishap, mishap, throw] at h
  | some b => simpa [orMishap, pure, Act.pure] using h

lemma orSignatureFault_eq_ok {a? : Except SignatureFault α} {a : α}
    (h : (orSignatureFault a? w).outcome = .ok a) : a? = .ok a := by
  cases a? with
  | error e => simp [orSignatureFault, throw] at h
  | ok b => simpa [orSignatureFault, pure, Act.pure] using h

/-! ### Results -/

/-- From one world a computation ends with a result and leaves another world. -/
def Returns (x : Act α) (w : World) (a : α) (w' : World) : Prop :=
  (x w).outcome = .ok a ∧ (x w).world = w'

section returns

variable {a : α} {b : β}

lemma returns_of_eq (h : x w = ⟨.ok a, w', es⟩) : x.Returns w a w' := by
  simp [Returns, h]

/-- A result that can be computed. -/
lemma returns_of_toOption (h : (x w).outcome.toOption = some a) : x.Returns w a (x w).world := by
  rcases hx : (x w).outcome with stop | b
  · simp [hx, Except.toOption] at h
  · exact ⟨by simpa [hx, Except.toOption] using h, rfl⟩

lemma Returns.of_eq {y : Act α} {w₁ : World} (h : x.Returns w a w') (heq : y w₁ = x w) :
    y.Returns w₁ a w' := by
  rwa [Returns, heq]

lemma returns_pure_iff {a' : α} : (pure a : Act α).Returns w a' w' ↔ a = a' ∧ w = w' := by
  simp [Returns, pure, Act.pure]

lemma not_returns_throw {e : Fault} : ¬ (throw e : Act α).Returns w a w' := by
  simp [Returns, throw]

lemma not_returns_exhausted : ¬ (exhausted : Act α).Returns w a w' := by
  simp [Returns, exhausted]

/-- A sequence returns if its steps do, one after the other. -/
lemma returns_bind_iff :
    (x >>= f).Returns w b w' ↔ ∃ a w₁, x.Returns w a w₁ ∧ (f a).Returns w₁ b w' := by
  rcases hx : x w with ⟨stop | a, w₁, es⟩
  · simp [Returns, bind_of_error hx, hx]
  · simp [Returns, bind_of_ok hx, hx]

/-- After a step that returns a sequence ends as what comes after it. -/
lemma Returns.outcome_bind (h : x.Returns w a w') :
    ((x >>= f) w).outcome = (f a w').outcome := by
  rw [Act.outcome_bind, h.1, h.2]
  rfl

lemma Returns.world_bind (h : x.Returns w a w') : ((x >>= f) w).world = (f a w').world := by
  obtain ⟨houtcome, rfl⟩ := h
  rcases hx : x w with ⟨stop | b, w₁, es⟩ <;> rw [hx] at houtcome
  · simp at houtcome
  · obtain rfl := Except.ok.inj houtcome
    rw [bind_of_ok hx]

/-- A step that is done for its effect, and then a result. -/
lemma returns_bind_pure_iff {x : Act Unit} :
    (x >>= fun _ => pure b).Returns w b w' ↔ x.Returns w () w' := by
  rw [returns_bind_iff]
  refine ⟨?_, fun h => ⟨(), w', h, returns_pure_iff.2 ⟨rfl, rfl⟩⟩⟩
  rintro ⟨_, w₁, hx, hpure⟩
  obtain ⟨-, rfl⟩ := returns_pure_iff.1 hpure
  exact hx

/-- A step that shows nothing and changes nothing. -/
lemma returns_bind_of_pure (h : x w = ⟨.ok a, w, []⟩) :
    (x >>= f).Returns w b w' ↔ (f a).Returns w b w' := by
  rw [Returns, Returns, bind_of_pure h]

/-- Catching faults does not get in the way of a result. -/
lemma returns_attempt_iff : (attempt x).Returns w (.ok a) w' ↔ x.Returns w a w' := by
  rcases hx : x w with ⟨(e | -) | a', w₁, es⟩
  · simp [Returns, attempt_of_fault hx, hx]
  · simp [Returns, attempt_of_exhausted hx, hx]
  · simp [Returns, attempt_of_ok hx, hx]

end returns

end CallContracts.Act
