import CallContracts.Proofs.Number.Nearest
import CallContracts.Proofs.Registry.Composite

/-!
Whole numbers between bounds.

The bounds of a type travel as text, and are read as floating-point numbers.

* `NativePredicate.returns_bound_iff`: what is left of a whole number that is written as a bound;
* `Registry.tests_bounded`: **a whole number is between bounds** if it is between what is left of
  them; bounds up to `2 ^ 53` are exact;
* `Registry.not_forall_tests_bounded`: larger bounds are not.
-/

namespace CallContracts

open Number Signature.Grammar

/-! ### Comparing -/

/-- Whole numbers are compared exactly. -/
lemma Value.precedes_int (h : Heap) (a b : ℤ) :
    precedes h false (.int a) (.int b) = .ok (decide (a ≤ b)) := by
  have hnumbers : ∀ n, precedesWithin h (n + 1) false (.int a) (.int b) =
      Numeric.precedes false (.int a) (.int b) := by
    intro n
    unfold precedesWithin
    rfl
  rw [precedes, nestingLimit, hnumbers]
  simp only [Numeric.precedes, Numeric.magnitude?, Numeric.isDecimal, Bool.or_self, Bool.false_and,
    Bool.false_eq_true, if_false, Magnitude.precedes, Except.ok.injEq]
  rw [Bool.eq_iff_iff, decide_eq_true_eq, le_iff_lt_or_eq]
  simp [Magnitude.le, Magnitude.lt, Magnitude.eq]

namespace NativePredicate

variable {d : Descriptor} {w w' : World} {k m n lo hi : ℤ}

/-- What is left of a whole number that is written as a bound. -/
lemma returns_bound_iff : (bound d (toString k)).Returns w m w' ↔ held? k = some m ∧ w' = w := by
  rw [bound, Binary64.value?_toString]
  cases hheld : held? k with
  | none => simp [Act.Returns, Act.throw]
  | some l => simp [Act.returns_pure_iff, eq_comm]

/-- A whole number lies between two others if it does so between what is left of them. -/
lemma returns_isBetween_iff (hd : d.arguments? = some [toString lo, toString hi]) :
    (isBetween (.int n) d).Returns w true w' ↔
      w' = w ∧ ∃ lo' hi', held? lo = some lo' ∧ held? hi = some hi' ∧ lo' ≤ n ∧ n ≤ hi' := by
  have htypes : typeArguments d 2 = pure [toString lo, toString hi] := by
    simp [typeArguments, hd]
  have hheap : Act.heap w = ⟨.ok w.heap, w, []⟩ := rfl
  rw [isBetween, htypes, Act.pure_bind, Act.returns_bind_of_pure hheap]
  simp only [Act.returns_bind_iff, List.getD_cons_zero, List.getD_cons_succ, returns_bound_iff,
    Value.precedes_int, Value.orMishap, Act.returns_pure_iff]
  constructor
  · rintro ⟨lo', w₁, ⟨hlo, rfl⟩, _, _, ⟨rfl, rfl⟩, h⟩
    by_cases hlower : lo' ≤ n
    · simp only [hlower, decide_true, if_true, Act.returns_bind_iff, returns_bound_iff,
        Act.returns_pure_iff] at h
      obtain ⟨hi', w₁, ⟨hhi, rfl⟩, hupper, rfl⟩ := h
      exact ⟨rfl, lo', hi', hlo, hhi, hlower, of_decide_eq_true hupper⟩
    · simp [hlower, Act.returns_pure_iff] at h
  · rintro ⟨rfl, lo', hi', hlo, hhi, hlower, hupper⟩
    refine ⟨lo', w', ⟨hlo, rfl⟩, _, w', ⟨rfl, rfl⟩, ?_⟩
    simp only [hlower, decide_true, if_true, Act.returns_bind_iff, returns_bound_iff,
      Act.returns_pure_iff]
    exact ⟨hi', w', ⟨hhi, rfl⟩, decide_eq_true hupper, rfl⟩

end NativePredicate

namespace Registry

variable {r : RegistryId} {w w' : World} {n lo hi : ℤ}

/-! ### Numbers -/

/-- Whole numbers are numbers. -/
lemma tests_number_int_iff (hbase : HasBase (w.registry r)) :
    Tests r "number" (.int n) w true w' ↔ w' = w :=
  (tests_number_iff hbase).trans (and_iff_right rfl)

/-- Whole numbers are whole. -/
lemma tests_int_int_iff (hlibrary : HasLibrary r (w.registry r)) :
    Tests r "int" (.int n) w true w' ↔ w' = w := by
  have hparse : Descriptor.parse "int" = .ok (.ofName "int") := rfl
  have hpresented : Stage.presented (.int n) = .int n := rfl
  rw [tests_refinement_iff hlibrary (t := ("number", "int", .isInt)) (by decide) hparse rfl,
    hpresented]
  simp only [tests_number_int_iff hlibrary.base]
  constructor
  · rintro ⟨w₁, rfl, m, hm⟩
    exact (Act.returns_pure_iff.1 hm).2.symm
  · rintro rfl
    exact ⟨w', rfl, 0, Act.returns_pure_iff.2 ⟨rfl, rfl⟩⟩

/-! ### Bounds -/

/-- The types of numbers between two bounds. -/
lemma parse_applied_bounds (lo hi : ℤ) {name : String} (hname : Descriptor.PlainName name) :
    Descriptor.parse (Descriptor.applied name [toString lo, toString hi]) =
      .ok ⟨name, .arguments [toString lo, toString hi], false⟩ := by
  have htrim : ∀ k : ℤ, Text.trimText (toString k) = toString k := by
    intro k
    rw [Text.trimText, Text.trim_toString, String.ofList_toList]
  have hnested : ∀ k : ℤ, Nested [';'] (toString k).toList := by
    intro k
    refine nested_plain fun c hc => ?_
    rcases eq_sign_or_isDigit_of_mem hc with rfl | hdigit
    · decide
    · refine ⟨?_, ?_, ?_⟩
      · rintro rfl
        exact absurd hdigit (by decide)
      · rintro rfl
        exact absurd hdigit (by decide)
      · intro hmem
        obtain rfl := List.mem_singleton.1 hmem
        exact absurd hdigit (by decide)
  have hboth : ∀ t ∈ [toString lo, toString hi], Nested [';'] t.toList :=
    List.forall_mem_cons.2 ⟨hnested lo, List.forall_mem_singleton.2 (hnested hi)⟩
  have hparse := Descriptor.parse_applied hname (List.cons_ne_nil _ _) hboth
  rwa [List.map_cons, List.map_cons, List.map_nil, htrim, htrim] at hparse

/-- A whole number is of the type of numbers between two bounds if it is between what is left of
them. -/
lemma tests_bounded_iff (hlibrary : HasLibrary r (w.registry r)) :
    Tests r (Descriptor.applied "bounded" [toString lo, toString hi]) (.int n) w true w' ↔
      w' = w ∧ ∃ lo' hi', held? lo = some lo' ∧ held? hi = some hi' ∧ lo' ≤ n ∧ n ≤ hi' := by
  have ht : ("number", "bounded", NativePredicate.isBounded) ∈ refinements := by decide
  have hparse := parse_applied_bounds lo hi (plainName_refinement ht).2
  have hpresented : Stage.presented (.int n) = .int n := rfl
  have hanswer : ∀ n v d, NativePredicate.isBounded.answer (invoke n) v (.descriptor d)
      (membershipTest r) = NativePredicate.isBetween v d >>= fun b => pure (.bool b) := by
    intro n v d
    rw [NativePredicate.answer, NativePredicate.descriptorOf, Act.pure_bind]
  rw [tests_refinement_iff hlibrary ht hparse rfl, hpresented]
  simp only [tests_number_int_iff hlibrary.base, exists_eq_left, hanswer]
  rw [yields_bool_iff, Act.yields_const_iff]
  exact NativePredicate.returns_isBetween_iff rfl

/-- Testing a part of a value is what a program sees of its type. -/
lemma yields_test_iff {text : String} {v : Value} {b : Bool} :
    Act.Yields (fun n => NativePredicate.test (invoke n) (membershipTest r) text v) w (.bool b) w' ↔
      Tests r text v w b w' := by
  simp only [Act.Yields, NativePredicate.test, Act.returns_bind_iff]
  rfl

/-- The type of whole numbers between two bounds is the same for whole numbers. -/
lemma tests_boundedInt_iff (hlibrary : HasLibrary r (w.registry r)) :
    Tests r (Descriptor.applied "boundedInt" [toString lo, toString hi]) (.int n) w true w' ↔
      Tests r (Descriptor.applied "bounded" [toString lo, toString hi]) (.int n) w true w' := by
  have ht : ("int", "boundedInt", NativePredicate.isBoundedInt) ∈ refinements := by decide
  have hparse := parse_applied_bounds lo hi (plainName_refinement ht).2
  have hpresented : Stage.presented (.int n) = .int n := rfl
  have hanswer : ∀ n v, NativePredicate.isBoundedInt.answer (invoke n) v
      (.descriptor ⟨"boundedInt", .arguments [toString lo, toString hi], false⟩)
      (membershipTest r) = NativePredicate.test (invoke n) (membershipTest r)
        (Descriptor.applied "bounded" [toString lo, toString hi]) v := fun _ _ => rfl
  rw [tests_refinement_iff hlibrary ht hparse rfl, hpresented]
  simp only [tests_int_int_iff hlibrary, exists_eq_left, hanswer]
  exact yields_test_iff

/-- **Whole numbers between bounds.** The bounds of a type are read as floating-point numbers, so a
whole number of any size is between two whole numbers as bounds exactly if it is between what is
left of them; a bound that is too large for a floating-point number lets nothing pass. Up to
`2 ^ 53` nothing is lost, and there the bounds are exact. -/
theorem tests_bounded (hlibrary : HasLibrary r (w.registry r)) (lo hi n : ℤ) (w' : World) :
    (∀ name ∈ ["bounded", "boundedInt"],
      Tests r (Descriptor.applied name [toString lo, toString hi]) (.int n) w true w' ↔
        w' = w ∧ ∃ lo' hi', held? lo = some lo' ∧ held? hi = some hi' ∧ lo' ≤ n ∧ n ≤ hi') ∧
    (lo.natAbs ≤ 2 ^ 53 → hi.natAbs ≤ 2 ^ 53 → ∀ name ∈ ["bounded", "boundedInt"],
      (Tests r (Descriptor.applied name [toString lo, toString hi]) (.int n) w true w' ↔
        w' = w ∧ lo ≤ n ∧ n ≤ hi)) := by
  have hheld : ∀ name ∈ ["bounded", "boundedInt"],
      Tests r (Descriptor.applied name [toString lo, toString hi]) (.int n) w true w' ↔
        w' = w ∧ ∃ lo' hi', held? lo = some lo' ∧ held? hi = some hi' ∧ lo' ≤ n ∧ n ≤ hi' := by
    simp only [List.forall_mem_cons, List.not_mem_nil, false_imp_iff, implies_true, and_true]
    exact ⟨tests_bounded_iff hlibrary, (tests_boundedInt_iff hlibrary).trans
      (tests_bounded_iff hlibrary)⟩
  refine ⟨hheld, fun hlo hhi name hname => ?_⟩
  rw [hheld name hname, held?_of_le hlo, held?_of_le hhi]
  simp

/-- Five is between one and ten, and eleven is not. -/
theorem tests_bounded_five :
    let w := libraryWorld
    HasLibrary 0 (w.registry 0) ∧ Tests 0 "bounded<1;10>" (.int 5) w true w ∧
      ¬ Tests 0 "boundedInt<1;10>" (.int 11) w true w := by
  intro w
  have hlibrary : HasLibrary 0 (w.registry 0) := installed_libraryWorld.library
  have hfive := (tests_bounded hlibrary 1 10 5 w).2 (by norm_num) (by norm_num) "bounded" (by simp)
  have heleven := (tests_bounded hlibrary 1 10 11 w).2 (by norm_num) (by norm_num) "boundedInt"
    (by simp)
  exact ⟨hlibrary, hfive.2 ⟨rfl, by norm_num, by norm_num⟩, fun h => by
    have hbounds := heleven.1 h
    omega⟩

/-- Larger bounds are not exact: nothing is between a number and itself if it is not what is left of
it. -/
theorem not_forall_tests_bounded : ¬ ∀ (r : RegistryId) (w : World) (lo hi n : ℤ),
    HasLibrary r (w.registry r) →
      ((∃ w', Tests r (Descriptor.applied "bounded" [toString lo, toString hi]) (.int n) w true
        w') ↔ lo ≤ n ∧ n ≤ hi) := by
  have hlibrary := installed_libraryWorld.library
  intro hall
  obtain ⟨w', h⟩ := (hall 0 _ 9007199254740993 9007199254740993 9007199254740993 hlibrary).2
    ⟨le_rfl, le_rfl⟩
  obtain ⟨-, lo', hi', hlo, hhi, hlower, hupper⟩ := (tests_bounded_iff hlibrary).1 h
  have hleft : held? 9007199254740993 = some 9007199254740992 := by decide +kernel
  rw [hleft] at hlo hhi
  obtain rfl := Option.some.inj hlo
  obtain rfl := Option.some.inj hhi
  omega

end Registry

end CallContracts
