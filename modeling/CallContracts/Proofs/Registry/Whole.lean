import CallContracts.Proofs.Number.Overflow
import CallContracts.Proofs.Registry.Composite

/-!
Whole numbers.

The predicate of the whole numbers asks first whether a number is finite. For a fraction that means
to read it as a floating-point number, which fails if it is too large.

* `Value.IsWhole`: the exact value of a number is a whole one, and `Value.Overflows`: the number is
  a fraction that is too large for a floating-point number;
* `NativePredicate.isWhole_of_not_overflows` and `NativePredicate.isWhole_of_overflows`: what the
  predicate makes of a number;
* `Registry.decides_whole`: **a number is of the type of whole numbers exactly if it is whole**,
  whichever way the type is asked for, unless it overflows: then a check faults and the membership
  test answers that it is not;
* `Registry.not_forall_decides_whole`: so not all whole numbers are of the type.
-/

namespace CallContracts

/-! ### Numbers -/

/-- The exact value of a number is finite and whole. -/
def Value.IsWhole (v : Value) : Prop :=
  ∃ n : ℤ, v.number?.bind Numeric.magnitude? = some (.finite n)

/-- A fraction that is too large for a floating-point number. -/
def Value.Overflows (v : Value) : Prop :=
  ∃ q : ℚ, v = .scalar (.fraction q) ∧ Binary64.overflowLimit ≤ |q|

namespace NativePredicate

variable {v : Value}

/-- The marker of a parameter left out is not a number. -/
lemma isAbsent_of_isReal (hv : isReal v = true) : v.isAbsent = false := by
  unfold isReal at hv
  split at hv
  · rfl
  · rfl
  · rfl
  · rfl
  · simp at hv

lemma den_eq_one_iff {q : ℚ} : q.den = 1 ↔ ∃ n : ℤ, q = n :=
  ⟨fun h => ⟨q.num, ((Rat.den_eq_one_iff q).1 h).symm⟩, fun ⟨_, hn⟩ => hn ▸ Rat.den_intCast _⟩

/-- The exact value of a floating-point number is whole if there is one and it is. -/
lemma exists_magnitude_eq_iff (x : Binary64) :
    (x.value?.any fun q => q.den == 1) = true ↔ ∃ n : ℤ, x.magnitude = .finite n := by
  cases x with
  | nan => simp [Binary64.value?, Binary64.magnitude]
  | infinite negative => simp [Binary64.value?, Binary64.magnitude]
  | finite negative s e => simp [Binary64.value?, Binary64.magnitude, den_eq_one_iff]

/-- A number that does not overflow is whole or not. -/
lemma isWhole_of_not_overflows (hv : isReal v = true) (hlimit : ¬ v.Overflows) :
    ∃ b, isWhole v = pure b ∧ (b = true ↔ v.IsWhole) := by
  unfold isReal at hv
  split at hv
  · next n => exact ⟨true, rfl, by simp [Value.IsWhole, Value.number?, Scalar.number?,
      Numeric.magnitude?]⟩
  · next x =>
    refine ⟨_, rfl, (exists_magnitude_eq_iff x).trans ?_⟩
    simp [Value.IsWhole, Value.number?, Scalar.number?, Numeric.magnitude?]
  · next q =>
    have hfinite : ∀ negative, Binary64.ofRat q ≠ .infinite negative := fun negative hround =>
      hlimit ⟨q, rfl, Binary64.ofRat_eq_infinite_iff.1 ⟨negative, hround⟩⟩
    refine ⟨q.den == 1, ?_, ?_⟩
    · simp only [isWhole, Value.number?, Scalar.number?]
    · rw [beq_iff_eq, den_eq_one_iff]
      simp [Value.IsWhole, Value.number?, Scalar.number?, Numeric.magnitude?]
  · next l => exact ⟨true, rfl, by simp [Value.IsWhole, Value.number?, Scalar.number?,
      Numeric.magnitude?]⟩
  · simp at hv

/-- One that overflows makes the predicate fault. -/
lemma isWhole_of_overflows (h : v.Overflows) : isWhole v = Act.mishap .overflow := by
  obtain ⟨q, rfl, hq⟩ := h
  obtain ⟨negative, hround⟩ := Binary64.ofRat_eq_infinite_iff.2 hq
  simp only [isWhole, Value.number?, Scalar.number?, hround]

end NativePredicate

namespace Registry

open NativePredicate

variable {r : RegistryId} {w w' : World} {v : Value} {d : Descriptor} {text : String} {b : Bool}

/-! ### Refinements that answer without more ado -/

section refinements

variable {n : ℕ} {chain : String} {t : String × String × NativePredicate}

/-- The predicate of a refinement is one of the library, enforced against the parent. -/
lemma ask_refinement (ht : t ∈ refinements) (hbase : HasBase (w.registry r))
    (haccepts : accepts (invoke (n + 2)) r (.ofName t.1) (Stage.presented v) w =
      ⟨.ok true, w, []⟩) :
    (refinementEntry r chain t).ask (invoke (n + 3)) r v (.descriptor d) w =
      (t.2.2.answer (invoke n) v (.descriptor d) (membershipTest r) >>=
        Enforcer.checkResult (invoke (n + 2)) r (.plain (.predicate t.2.2)
          (contractOn (.ofName t.1)) (refinementContract t.1) .null true)) w := by
  have harity : 1 ≤ (predicate t.2.2).predicateArity := one_le_arity_of_fits (fits_refinement ht)
  rw [Entry.ask, Entry.arguments, refinementEntry, newEntry, refinementPredicate,
    predicateArity_enforced]
  refine (invoke_enforcedOn_of_accepts hbase rfl harity haccepts).trans ?_
  rw [← predicate, invoke_predicate]

/-- A truth value passes as a result. -/
lemma checkResult_bool {f : Function} {required : Descriptor} {raw : String}
    (hbase : HasBase (w.registry r)) :
    Enforcer.checkResult (invoke (n + 1)) r (.plain f (contractOn required) raw .null true)
      (.bool b) w = ⟨.ok (.bool b), w, []⟩ := by
  have hmember := isMember_boolean hbase n (.bool b)
  rw [Enforcer.checkResult]
  exact (Act.bind_of_pure hmember).trans rfl

lemma ask_refinement_of_ok (ht : t ∈ refinements) (hbase : HasBase (w.registry r))
    (haccepts : accepts (invoke (n + 2)) r (.ofName t.1) (Stage.presented v) w =
      ⟨.ok true, w, []⟩)
    (hanswer : t.2.2.answer (invoke n) v (.descriptor d) (membershipTest r) w =
      ⟨.ok (.bool b), w, []⟩) :
    (refinementEntry r chain t).ask (invoke (n + 3)) r v (.descriptor d) w =
      ⟨.ok (.bool b), w, []⟩ := by
  rw [ask_refinement ht hbase haccepts, Act.bind_of_pure hanswer, checkResult_bool hbase]

lemma ask_refinement_of_fault {f : Fault} (ht : t ∈ refinements) (hbase : HasBase (w.registry r))
    (haccepts : accepts (invoke (n + 2)) r (.ofName t.1) (Stage.presented v) w =
      ⟨.ok true, w, []⟩)
    (hanswer : t.2.2.answer (invoke n) v (.descriptor d) (membershipTest r) w =
      ⟨.error (.fault f), w, []⟩) :
    (refinementEntry r chain t).ask (invoke (n + 3)) r v (.descriptor d) w =
      ⟨.error (.fault f), w, []⟩ := by
  rw [ask_refinement ht hbase haccepts, Act.bind_of_error hanswer]

end refinements

/-! ### The type of whole numbers -/

section whole

variable {n : ℕ}

/-- What a check against the whole numbers makes of a number. -/
lemma matches_whole (hlibrary : HasLibrary r (w.registry r)) (hd : d.name = "int")
    (hv : isReal v = true) :
    (∀ b, isWhole v = pure b →
      «matches» (invoke (n + 3)) r (.descriptor d) v w = ⟨.ok (.bool b), w, []⟩) ∧
    ∀ m, isWhole v = Act.mishap m →
      «matches» (invoke (n + 3)) r (.descriptor d) v w =
        ⟨.error (.fault (.mishap m)), w, []⟩ := by
  have ht : ("number", "int", NativePredicate.isInt) ∈ refinements := by decide
  obtain ⟨chain, he⟩ := hlibrary.refinement _ ht
  have hentry : (w.registry r).find? d.name =
      some (refinementEntry r chain ("number", "int", .isInt)) := hd ▸ he
  have hpresented := Stage.presented_of_not_absent (isAbsent_of_isReal hv)
  have haccepts : accepts (invoke (n + 2)) r (.ofName "number") (Stage.presented v) w =
      ⟨.ok true, w, []⟩ := by
    refine accepts_base (t := ("number", .isNumber, "* -> number")) (by decide) hlibrary.base rfl ?_
    rw [hpresented, NativePredicate.answer, hv]
    rfl
  have hanswer : NativePredicate.isInt.answer (invoke n) v (.descriptor d) (membershipTest r) =
      isWhole v >>= fun b => pure (.bool b) := rfl
  rw [matches_of_find? hentry]
  refine ⟨fun b hb => ask_refinement_of_ok ht hlibrary.base haccepts ?_,
    fun m hm => ask_refinement_of_fault ht hlibrary.base haccepts ?_⟩
  · rw [hanswer, hb, Act.pure_bind]
    rfl
  · rw [hanswer, hm]
    rfl

/-- A check of one value against one required descriptor. -/
lemma verify_single {n : ℕ} (hd : d.optional = false) (hv : v.isAbsent = false) :
    Stage.verify (accepts (invoke n) r) [d] [v] = accepts (invoke n) r d v >>= fun b =>
      if b then pure .accept else Act.throw (.typeMismatch d.typeText v 0) := by
  rw [Stage.verify, Stage.verifyFrom_required hd, Stage.presented_of_not_absent hv]
  rfl

/-- What a check answers, the membership test answers. -/
lemma tests_iff_of_matches (hparse : Descriptor.parse text = .ok d)
    (he : (w.registry r).contains d.name = true)
    (h : «matches» (invoke n) r (.descriptor d) v w = ⟨.ok (.bool b), w, []⟩) {b' : Bool} :
    Tests r text v w b' w' ↔ b' = b ∧ w' = w := by
  obtain ⟨e, he⟩ := Option.isSome_iff_exists.1 he
  rw [matches_of_find? he] at h
  have htests : Tests r text v w b w :=
    (tests_iff hparse he).2 ⟨n, returns_holds_of_ask (Act.returns_of_eq h)⟩
  constructor
  · exact fun h => h.unique htests
  · rintro ⟨rfl, rfl⟩
    exact htests

/-- Where a check faults, the membership test answers that the value is not of the type. -/
lemma tests_iff_of_fault {f : Fault} (hparse : Descriptor.parse text = .ok d)
    (he : (w.registry r).contains d.name = true)
    (h : «matches» (invoke n) r (.descriptor d) v w = ⟨.error (.fault f), w, []⟩) {b' : Bool} :
    Tests r text v w b' w' ↔ b' = false ∧ w' = w := by
  obtain ⟨e, he⟩ := Option.isSome_iff_exists.1 he
  rw [matches_of_find? he] at h
  have htests : Tests r text v w false w :=
    (tests_iff hparse he).2 ⟨n, returns_holds_of_fault h⟩
  constructor
  · exact fun h => h.unique htests
  · rintro ⟨rfl, rfl⟩
    exact htests

/-- **A number is of the type of whole numbers exactly if it is whole**, whichever way the type is
asked for: a check against it answers so and a stage of it accepts the value or rejects it, and so
does the membership test. But for a fraction that is too large for a floating-point number every
check faults, whether or not the fraction is whole, and the membership test answers that it is
not. -/
theorem decides_whole (hlibrary : HasLibrary r (w.registry r)) (hd : d.name = "int")
    (hnumber : Tests r "number" v w true w) :
    (¬ v.Overflows → ∃ b, (b = true ↔ v.IsWhole) ∧
      (∀ n, «matches» (invoke (n + 3)) r (.descriptor d) v w = ⟨.ok (.bool b), w, []⟩) ∧
      (d.optional = false → ∀ n, Stage.verify (accepts (invoke (n + 3)) r) [d] [v] w =
        ⟨if b then .ok .accept else .error (.fault (.typeMismatch d.typeText v 0)), w, []⟩) ∧
      ∀ text b' w', Descriptor.parse text = .ok d →
        (Tests r text v w b' w' ↔ b' = b ∧ w' = w)) ∧
    (v.Overflows →
      (∀ n, «matches» (invoke (n + 3)) r (.descriptor d) v w =
        ⟨.error (.fault (.mishap .overflow)), w, []⟩) ∧
      (d.optional = false → ∀ n, Stage.verify (accepts (invoke (n + 3)) r) [d] [v] w =
        ⟨.error (.fault (.mishap .overflow)), w, []⟩) ∧
      ∀ text b' w', Descriptor.parse text = .ok d →
        (Tests r text v w b' w' ↔ b' = false ∧ w' = w)) := by
  obtain ⟨hv, -⟩ := (tests_number_iff hlibrary.base).1 hnumber
  have hpresent : v.isAbsent = false := isAbsent_of_isReal hv.symm
  have hknown : (w.registry r).contains d.name = true := by
    obtain ⟨chain, he⟩ := hlibrary.refinement ("number", "int", .isInt) (by decide)
    exact contains_of_find? (hd ▸ he)
  have hmatches := fun n => matches_whole (n := n) hlibrary hd hv.symm
  constructor
  · intro hlimit
    obtain ⟨b, hb, hwhole⟩ := isWhole_of_not_overflows hv.symm hlimit
    have hanswer := fun n => (hmatches n).1 b hb
    refine ⟨b, hwhole, hanswer, fun hrequired n => ?_, fun text b' w' hparse =>
      tests_iff_of_matches hparse hknown (hanswer 0)⟩
    rw [verify_single hrequired hpresent, Act.bind_of_pure (accepts_of_matches (hanswer n))]
    cases b <;> rfl
  · intro hlimit
    have hfault := fun n => (hmatches n).2 .overflow (isWhole_of_overflows hlimit)
    refine ⟨hfault, fun hrequired n => ?_, fun text b' w' hparse =>
      tests_iff_of_fault hparse hknown (hfault 0)⟩
    rw [verify_single hrequired hpresent, Act.bind_of_error (accepts_of_fault rfl (hfault n))]

/-- A fraction with a numerator of 401 digits, which is whole. -/
def largeWhole : Value := .scalar (.fraction (10 ^ 400))

lemma overflows_largeWhole : largeWhole.Overflows := by
  refine ⟨10 ^ 400, rfl, ?_⟩
  rw [abs_of_nonneg (by positivity)]
  exact Binary64.overflowLimit_le (by norm_num)

lemma isWhole_largeWhole : largeWhole.IsWhole := by
  refine ⟨10 ^ 400, ?_⟩
  rw [Int.cast_pow, Int.cast_ofNat]
  rfl

/-- Three and a half is not of the type of whole numbers, and neither is a large whole fraction. -/
theorem decides_whole_half :
    let w := libraryWorld
    let half : Value := .scalar (.fraction (7 / 2))
    HasLibrary 0 (w.registry 0) ∧ Tests 0 "number" half w true w ∧ ¬ half.Overflows ∧
      Tests 0 "int" half w false w ∧ Tests 0 "number" largeWhole w true w ∧
      largeWhole.IsWhole ∧ Tests 0 "int" largeWhole w false w := by
  intro w half
  have hlibrary : HasLibrary 0 (w.registry 0) := installed_libraryWorld.library
  have hparse : Descriptor.parse "int" = .ok (.ofName "int") := rfl
  have hhalf : Tests 0 "number" half w true w := (tests_number_iff hlibrary.base).2 ⟨rfl, rfl⟩
  have hlarge : Tests 0 "number" largeWhole w true w :=
    (tests_number_iff hlibrary.base).2 ⟨rfl, rfl⟩
  have hlimit : ¬ half.Overflows := by
    rintro ⟨q, hq, hover⟩
    obtain rfl : 7 / 2 = q := by simpa [half] using hq
    have htop : (1 : ℚ) ≤ 2 ^ Binary64.greatestExponent :=
      one_le_zpow₀ (by norm_num) (by decide)
    have hbelow := Binary64.lt_overflowLimit
    rw [abs_of_nonneg (by norm_num)] at hover
    linarith
  have hnot : ¬ half.IsWhole := by
    rintro ⟨n, hn⟩
    have hvalue : (7 / 2 : ℚ) = n := by
      simpa [half, Value.number?, Scalar.number?, Numeric.magnitude?] using hn
    have hden := den_eq_one_iff.2 ⟨n, hvalue⟩
    norm_num at hden
  obtain ⟨b, hb, -, -, htests⟩ := (decides_whole (d := .ofName "int") hlibrary rfl hhalf).1 hlimit
  obtain ⟨-, -, hdenies⟩ :=
    (decides_whole (d := .ofName "int") hlibrary rfl hlarge).2 overflows_largeWhole
  have hfalse : false = b := (Bool.eq_false_iff.2 fun h => hnot (hb.1 h)).symm
  exact ⟨hlibrary, hhalf, hlimit, (htests _ _ _ hparse).2 ⟨hfalse, rfl⟩, hlarge,
    isWhole_largeWhole, (hdenies _ _ _ hparse).2 ⟨rfl, rfl⟩⟩

/-- So a check can fault, and the membership test deny, that a number is whole. -/
theorem not_forall_decides_whole : ¬ ∀ (r : RegistryId) (w : World) (d : Descriptor) (v : Value),
    HasLibrary r (w.registry r) → d.name = "int" → Tests r "number" v w true w →
      ∃ n b, («matches» (invoke n) r (.descriptor d) v).Returns w (.bool b) w ∧
        (b = true ↔ v.IsWhole) := by
  intro hall
  have hlibrary := installed_libraryWorld.library
  have hlarge : Tests 0 "number" largeWhole libraryWorld true libraryWorld :=
    (tests_number_iff hlibrary.base).2 ⟨rfl, rfl⟩
  obtain ⟨n, b, hreturns, -⟩ := hall 0 libraryWorld (.ofName "int") largeWhole hlibrary rfl hlarge
  have hrising : Act.Rising fun n => «matches» (invoke n) 0 (.descriptor (.ofName "int"))
      largeWhole := fun _ _ h => congr_matches (invoke_approximates h) _ _ _
  have hdeep := hrising.returns (Nat.le_add_right n 3) hreturns
  have hfault := (matches_whole (n := n) hlibrary (d := .ofName "int") rfl (v := largeWhole) rfl).2
    .overflow (isWhole_of_overflows overflows_largeWhole)
  rw [Act.Returns, hfault] at hdeep
  simp at hdeep

end whole

end Registry

end CallContracts
