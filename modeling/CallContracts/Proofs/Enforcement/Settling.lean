import CallContracts.Proofs.Enforcement.Depth

/-!
How computations end when calls may nest as deeply as they like.

* `Act.Rising`: a computation for every depth, of which each ends as the deeper ones do or runs out
  of depth;
* `Act.Settles`: with enough depth such a computation ends, and how; there is at most one way
  (`Act.Settles.unique`);
* `Act.Settles.bind` and `Act.settles_bind_cases`: a sequence settles step by step.
-/

namespace CallContracts.Act

variable {α β : Type} {x y : ℕ → Act α} {f : ℕ → α → Act β} {w w' : World} {a : α} {stop : Stop}
  {es : List Event} {res res' : Result α}

/-- A computation for every depth, of which each ends as the deeper ones do or runs out of depth. -/
def Rising (x : ℕ → Act α) : Prop := ∀ n m, n ≤ m → (x n).Approximates (x m)

/-- With enough depth a computation ends, and it ends in this way. -/
def Settles (x : ℕ → Act α) (w : World) (res : Result α) : Prop :=
  res.outcome ≠ .error .exhausted ∧ ∃ n, ∀ m, n ≤ m → x m w = res

/-- What does not run out of depth settles. -/
lemma Rising.settles (hx : Rising x) {n : ℕ} (h : (x n w).outcome ≠ .error .exhausted) :
    Settles x w (x n w) :=
  ⟨h, n, fun m hm => ((hx n m hm w).resolve_left h).symm⟩

lemma Rising.settles_of_ok (hx : Rising x) {n : ℕ} (h : x n w = ⟨.ok a, w', es⟩) :
    Settles x w ⟨.ok a, w', es⟩ :=
  h ▸ hx.settles (by simp [h])

namespace Settles

lemma of_const (hne : res.outcome ≠ .error .exhausted) (h : ∀ n, x n w = res) : Settles x w res :=
  ⟨hne, 0, fun n _ => h n⟩

/-- Some depth suffices. -/
lemma exists_eq (h : Settles x w res) : ∃ n, x n w = res := by
  obtain ⟨-, n, hn⟩ := h
  exact ⟨n, hn n le_rfl⟩

/-- There is at most one way to end. -/
lemma unique (h : Settles x w res) (h' : Settles x w res') : res = res' := by
  obtain ⟨-, n, hn⟩ := h
  obtain ⟨-, m, hm⟩ := h'
  rw [← hn (max n m) (le_max_left n m), hm (max n m) (le_max_right n m)]

/-- A few levels more or less make no difference. -/
lemma shift (h : Settles x w res) (k : ℕ) : Settles (fun n => x (n + k)) w res := by
  obtain ⟨hne, n, hn⟩ := h
  exact ⟨hne, n, fun m hm => hn (m + k) (le_trans hm (Nat.le_add_right m k))⟩

lemma of_shift {k : ℕ} (h : Settles (fun n => x (n + k)) w res) : Settles x w res := by
  obtain ⟨hne, n, hn⟩ := h
  refine ⟨hne, n + k, fun m hm => ?_⟩
  obtain ⟨j, rfl⟩ := Nat.exists_eq_add_of_le' (le_trans (Nat.le_add_left k n) hm)
  exact hn j (Nat.le_of_add_le_add_right hm)

/-- A sequence whose first step settles with a result ends as the second one does. -/
lemma bind (hx : Settles x w ⟨.ok a, w', es⟩) {res : Result β}
    (hf : Settles (fun n => f n a) w' res) :
    Settles (fun n => x n >>= f n) w ⟨res.outcome, res.world, es ++ res.events⟩ := by
  obtain ⟨-, n, hn⟩ := hx
  obtain ⟨hne, m, hm⟩ := hf
  refine ⟨hne, max n m, fun k hk => ?_⟩
  have hsecond : f k a w' = res := hm k (le_trans (le_max_right n m) hk)
  rw [← hsecond]
  exact bind_of_ok (hn k (le_trans (le_max_left n m) hk))

/-- A sequence whose first step settles with a fault ends with it. -/
lemma bind_error (hx : Settles x w ⟨.error stop, w', es⟩) :
    Settles (fun n => x n >>= f n) w ⟨.error stop, w', es⟩ := by
  obtain ⟨hne, n, hn⟩ := hx
  refine ⟨fun h => hne ?_, n, fun m hm => bind_of_error (hn m hm)⟩
  simpa using h

end Settles

/-- **A sequence settles step by step.** -/
lemma settles_bind_cases (hx : Rising x) {res : Result β}
    (h : Settles (fun n => x n >>= f n) w res) :
    (∃ stop w' es, Settles x w ⟨.error stop, w', es⟩ ∧ res = ⟨.error stop, w', es⟩) ∨
    ∃ a w' es res', Settles x w ⟨.ok a, w', es⟩ ∧ Settles (fun n => f n a) w' res' ∧
      res = ⟨res'.outcome, res'.world, es ++ res'.events⟩ := by
  obtain ⟨hne, n, hn⟩ := h
  replace hn : ∀ m, n ≤ m → (x m >>= f m) w = res := hn
  have hfirst : Settles x w (x n w) := by
    refine hx.settles fun hexhausted => hne ?_
    rcases hxn : x n w with ⟨stop | a, w', es⟩
    · rw [hxn] at hexhausted
      obtain rfl : stop = .exhausted := Except.error.inj hexhausted
      rw [← hn n le_rfl, bind_of_error hxn]
    · rw [hxn] at hexhausted
      simp at hexhausted
  rcases hxn : x n w with ⟨stop | a, w', es⟩
  · rw [hxn] at hfirst
    exact .inl ⟨stop, w', es, hfirst, (hn n le_rfl).symm.trans (bind_of_error hxn)⟩
  · rw [hxn] at hfirst
    have hres : ∀ m, n ≤ m →
        res = ⟨(f m a w').outcome, (f m a w').world, es ++ (f m a w').events⟩ := by
      intro m hm
      have hxm : x m w = ⟨.ok a, w', es⟩ := by
        rw [← hxn]
        exact ((hx n m hm w).resolve_left (by simp [hxn])).symm
      rw [← hn m hm, bind_of_ok hxm]
    refine .inr ⟨a, w', es, f n a w', hfirst, ⟨?_, n, fun m hm => ?_⟩, hres n le_rfl⟩
    · simpa [hres n le_rfl] using hne
    · -- all deeper second steps make the same sequence, so they are the same
      have heq := (hres m hm).symm.trans (hres n le_rfl)
      simp only [Result.mk.injEq, List.append_cancel_left_eq] at heq
      obtain ⟨houtcome, hworld, hevents⟩ := heq
      show (⟨(f m a w').outcome, (f m a w').world, (f m a w').events⟩ : Result β) = f n a w'
      rw [houtcome, hworld, hevents]

end CallContracts.Act

namespace CallContracts

open Act

/-- Calls to a depth, for every depth. -/
lemma rising_invoke (v : Value) (args : List Value) (kw : Call.Keywords Value) :
    Rising fun n => invoke n v args kw := fun _ _ h => invoke_approximates h v args kw

lemma Registry.rising_holds (r : RegistryId) (e : Entry) (d : Descriptor) (v : Value) :
    Rising fun n => holds (invoke n) r e d v := fun _ _ h =>
  congr_holds (invoke_approximates h) r e d v

lemma Registry.rising_isMember (r : RegistryId) (text : String) (v : Value) :
    Rising fun n => isMember (invoke n) r text v := fun _ _ h =>
  congr_isMember (invoke_approximates h) r text v

end CallContracts
