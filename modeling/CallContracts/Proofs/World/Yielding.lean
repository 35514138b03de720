import CallContracts.Proofs.Enforcement.Settling

/-!
What computations return when calls may nest as deeply as they like.

A computation for every depth yields a result if it returns it at some depth, and then it returns
the same at all greater ones (`Act.Rising.returns`).

* `Act.Yields`, and `Act.yields_bind_iff`: a sequence yields what its steps yield, one after the
  other, each at a depth of its own;
* `Act.yields_all_iff` and `Act.yields_any_cons_iff`: the same for the items of a list.
-/

namespace CallContracts.Act

variable {α β : Type} {x : ℕ → Act α} {f : ℕ → α → Act β} {g : ℕ → α → Act Bool} {w w' : World}
  {a : α} {as : List α} {b : β}

/-! ### Computations for every depth -/

namespace Rising

lemma of_const (y : Act α) : Rising fun _ => y := fun _ _ _ => Approximates.refl y

lemma all (hg : ∀ a, Rising fun n => g n a) (as : List α) : Rising fun n => all (g n) as :=
  fun n m h => congr_all (fun a => hg a n m h) as

lemma any (hg : ∀ a, Rising fun n => g n a) (as : List α) : Rising fun n => any (g n) as :=
  fun n m h => congr_any (fun a => hg a n m h) as

/-- What is returned at some depth is returned at every greater one. -/
lemma returns (hx : Rising x) {n m : ℕ} (h : n ≤ m) (hn : (x n).Returns w a w') :
    (x m).Returns w a w' := (hx n m h).returns hn

end Rising

/-! ### Results -/

/-- At some depth a computation returns a result. -/
def Yields (x : ℕ → Act α) (w : World) (a : α) (w' : World) : Prop := ∃ n, (x n).Returns w a w'

/-- There is at most one result. -/
lemma Yields.unique (hx : Rising x) {a' : α} {w'' : World} (h : Yields x w a w')
    (h' : Yields x w a' w'') : a = a' ∧ w' = w'' := by
  obtain ⟨n, hn⟩ := h
  obtain ⟨m, hm⟩ := h'
  obtain ⟨ha, hw⟩ := hx.returns (le_max_left n m) hn
  obtain ⟨ha', hw'⟩ := hx.returns (le_max_right n m) hm
  exact ⟨Except.ok.inj (ha.symm.trans ha'), hw.symm.trans hw'⟩

/-- A few levels more make no difference. -/
lemma yields_shift_iff (hx : Rising x) (k : ℕ) :
    Yields (fun n => x (n + k)) w a w' ↔ Yields x w a w' :=
  ⟨fun ⟨n, h⟩ => ⟨n + k, h⟩, fun ⟨n, h⟩ => ⟨n, hx.returns (Nat.le_add_right n k) h⟩⟩

lemma yields_const_iff {y : Act α} : Yields (fun _ => y) w a w' ↔ y.Returns w a w' :=
  ⟨fun ⟨_, h⟩ => h, fun h => ⟨0, h⟩⟩

/-- **A sequence yields what its steps yield**, one after the other. -/
lemma yields_bind_iff (hx : Rising x) (hf : ∀ a, Rising fun n => f n a) :
    Yields (fun n => x n >>= f n) w b w' ↔
      ∃ a w₁, Yields x w a w₁ ∧ Yields (fun n => f n a) w₁ b w' := by
  constructor
  · rintro ⟨n, h⟩
    obtain ⟨a, w₁, hfirst, hsecond⟩ := returns_bind_iff.1 h
    exact ⟨a, w₁, ⟨n, hfirst⟩, n, hsecond⟩
  · rintro ⟨a, w₁, ⟨n, hfirst⟩, m, hsecond⟩
    exact ⟨max n m, returns_bind_iff.2 ⟨a, w₁, hx.returns (le_max_left n m) hfirst,
      (hf a).returns (le_max_right n m) hsecond⟩⟩

/-! ### Lists -/

/-- Something holds of all items of a list if it holds of the first and then of the others. -/
lemma yields_all_cons_iff (hg : ∀ a, Rising fun n => g n a) :
    Yields (fun n => all (g n) (a :: as)) w true w' ↔
      ∃ w₁, Yields (fun n => g n a) w true w₁ ∧ Yields (fun n => all (g n) as) w₁ true w' := by
  have hrest : ∀ b : Bool, Rising fun n => if b then all (g n) as else (pure false : Act Bool) := by
    intro b
    cases b with
    | false => exact .of_const _
    | true => exact .all hg as
  show Yields (fun n => g n a >>= fun b => if b then all (g n) as else pure false) w true w' ↔ _
  rw [yields_bind_iff (hg a) hrest]
  constructor
  · rintro ⟨b, w₁, hfirst, hothers⟩
    cases b with
    | false =>
      obtain ⟨_, hothers⟩ := hothers
      exact absurd (returns_pure_iff.1 hothers).1 (by simp)
    | true => exact ⟨w₁, hfirst, hothers⟩
  · rintro ⟨w₁, hfirst, hothers⟩
    exact ⟨true, w₁, hfirst, hothers⟩

/-- Whether something holds of an item of a list: it holds of the first, or not of the first, and
then it is asked of the others. -/
lemma yields_any_cons_iff (hg : ∀ a, Rising fun n => g n a) {result : Bool} :
    Yields (fun n => any (g n) (a :: as)) w result w' ↔
      (result = true ∧ Yields (fun n => g n a) w true w') ∨
        ∃ w₁, Yields (fun n => g n a) w false w₁ ∧ Yields (fun n => any (g n) as) w₁ result w' := by
  have hrest : ∀ b : Bool, Rising fun n => if b then (pure true : Act Bool) else any (g n) as := by
    intro b
    cases b with
    | false => exact .any hg as
    | true => exact .of_const _
  show Yields (fun n => g n a >>= fun b => if b then pure true else any (g n) as) w result w' ↔ _
  rw [yields_bind_iff (hg a) hrest]
  constructor
  · rintro ⟨b, w₁, hfirst, hothers⟩
    cases b with
    | false => exact .inr ⟨w₁, hfirst, hothers⟩
    | true =>
      obtain ⟨_, hothers⟩ := hothers
      obtain ⟨rfl, rfl⟩ := returns_pure_iff.1 hothers
      exact .inl ⟨rfl, hfirst⟩
  · rintro (⟨rfl, hfirst⟩ | ⟨w₁, hfirst, hothers⟩)
    · exact ⟨true, w', hfirst, 0, returns_pure_iff.2 ⟨rfl, rfl⟩⟩
    · exact ⟨false, w₁, hfirst, hothers⟩

/-- Something that leaves the world as it is holds of all items of a list if it holds of each. -/
lemma yields_all_iff (hg : ∀ a, Rising fun n => g n a)
    (hstill : ∀ a w₁, Yields (fun n => g n a) w true w₁ → w₁ = w) :
    Yields (fun n => all (g n) as) w true w' ↔
      w' = w ∧ ∀ a ∈ as, Yields (fun n => g n a) w true w := by
  induction as with
  | nil => simp [all, yields_const_iff, returns_pure_iff, eq_comm]
  | cons a as ih =>
    rw [yields_all_cons_iff hg, List.forall_mem_cons]
    constructor
    · rintro ⟨w₁, hfirst, hothers⟩
      obtain rfl := hstill a w₁ hfirst
      obtain ⟨hw, hothers⟩ := ih.1 hothers
      exact ⟨hw, hfirst, hothers⟩
    · rintro ⟨hw, hfirst, hothers⟩
      exact ⟨w, hfirst, ih.2 ⟨hw, hothers⟩⟩

end CallContracts.Act
