import CallContracts.Proofs.Registry.Bounds
import CallContracts.Proofs.Registry.Nesting
import CallContracts.Proofs.Signature.Soundness

/-!
Bounded whole numbers as an intersection.

The type of bounded whole numbers hands its bounds on to the type of bounded numbers, as a text that
is read anew.

* `Registry.Refuses`: a registry gives no tester for an expression, and why;
* `Registry.parse_boundedExpression`: bounds that are handed on are read as they were before;
* `Registry.tests_boundedInt`: **a bounded whole number is what is both whole and between the
  bounds**, whatever stands for the bounds.
-/

namespace CallContracts.Registry

open NativePredicate Number Signature Signature.Grammar Text

variable {r : RegistryId} {w w' : World} {text text' bounds : String} {types : List String}
  {d : Descriptor} {v : Value} {b : Bool} {f : Fault}

/-! ### Expressions that are refused -/

/-- A registry gives no tester for an expression but fails. -/
def Refuses (r : RegistryId) (text : String) (w : World) (f : Fault) : Prop :=
  ∃ n, (invoke n (membershipTest r) [.text text] [] w).outcome = .error (.fault f)

lemma refuses_iff :
    Refuses r text w f ↔ (resolve r (.text text) w).outcome = .error (.fault f) := by
  have hcall : ∀ n, (invoke (n + 1) (membershipTest r) [.text text] [] w).outcome =
      .error (.fault f) ↔ (resolve r (.text text) w).outcome = .error (.fault f) := by
    intro n
    rw [invoke_membershipTest]
    rcases hresolve : resolve r (.text text) w with ⟨stop | q, w₁, es⟩
    · simp [Act.bind_of_error hresolve]
    · simp [Act.bind_of_ok hresolve, pure, Act.pure]
  constructor
  · rintro ⟨_ | n, h⟩
    · simp [invoke, Act.exhausted] at h
    · exact (hcall n).1 h
  · exact fun h => ⟨1, (hcall 0).2 h⟩

/-- Expressions that read as the same are tested alike. -/
lemma tests_congr (h : Descriptor.parse text = Descriptor.parse text') :
    Tests r text v w b w' ↔ Tests r text' v w b w' := by
  simp only [tests_iff_isMember, returns_isMember_iff, h]

/-! ### Bounds -/

/-- A refinement of the library with something between its brackets. -/
lemma parse_enclosed_refinement {t : String × String × NativePredicate} (ht : t ∈ refinements)
    (bounds : String) :
    Descriptor.parse (t.2.1 ++ "<" ++ bounds ++ ">") =
      (splitArguments bounds.toList).map fun types => ⟨t.2.1, .arguments types, false⟩ :=
  Descriptor.parse_enclosed (plainName_refinement ht).2 bounds

/-- It is known if this splits. -/
lemma known_enclosed_iff {t : String × String × NativePredicate} (ht : t ∈ refinements)
    (hlibrary : HasLibrary r (w.registry r)) :
    Known r (t.2.1 ++ "<" ++ bounds ++ ">") w ↔
      ∃ types, splitArguments bounds.toList = .ok types := by
  obtain ⟨chain, he⟩ := hlibrary.refinement t ht
  rw [known_iff, parse_enclosed_refinement ht]
  rcases splitArguments bounds.toList with e | types
  · simp [Except.map]
  · simp [Except.map, he]

/-- It is refused otherwise. -/
lemma refuses_enclosed_iff {t : String × String × NativePredicate} (ht : t ∈ refinements)
    (hlibrary : HasLibrary r (w.registry r)) :
    Refuses r (t.2.1 ++ "<" ++ bounds ++ ">") w f ↔
      ∃ e, splitArguments bounds.toList = .error e ∧ .signature e = f := by
  obtain ⟨chain, he⟩ := hlibrary.refinement t ht
  rw [refuses_iff, resolve_text, parse_enclosed_refinement ht]
  rcases splitArguments bounds.toList with e | types
  · simp [Except.map]
  · simp [Except.map, he]

/-- **Bounds that are handed on** are read as they were before. -/
lemma parse_boundedExpression (h : splitArguments bounds.toList = .ok types) :
    Descriptor.parse (boundedExpression types) =
      Descriptor.parse ("bounded<" ++ bounds ++ ">") := by
  have ht : ("number", "bounded", NativePredicate.isBounded) ∈ refinements := by decide
  have hbounds := parse_enclosed_refinement ht bounds
  rw [h] at hbounds
  obtain ⟨hne, hsound⟩ := Descriptor.sound_of_splitArguments h
  have hnested : ∀ t ∈ types, Nested [';'] t.toList :=
    fun t hmem => nested_singleton_iff.2 (hsound t hmem).2
  have htrimmed : types.map trimText = types := by
    refine (List.map_congr_left fun t hmem => ?_).trans (List.map_id types)
    rw [trimText, (hsound t hmem).1, String.ofList_toList, id]
  have hagain := Descriptor.parse_applied (plainName_refinement ht).2 hne hnested
  rw [htrimmed] at hagain
  exact hagain.trans hbounds.symm

/-! ### Numbers -/

/-- The tests for whole numbers and for numbers between bounds end. -/
lemma testWithin_int (hlibrary : HasLibrary r (w.registry r)) : TestWithin r w 4 "int" := by
  intro d hparse
  obtain rfl : .ofName "int" = d := Except.ok.inj hparse
  exact within_number (t := ("number", "int", .isInt)) (by decide) rfl hlibrary rfl

lemma testWithin_enclosed {t : String × String × NativePredicate} (ht : t ∈ refinements)
    (hcomposite : t.2.1 ∉ compositeNames) (hlibrary : HasLibrary r (w.registry r))
    (bounds : String) : TestWithin r w 8 (t.2.1 ++ "<" ++ bounds ++ ">") := by
  intro d hparse
  have hname : ∀ d', Descriptor.parse (t.2.1 ++ "<" ++ bounds ++ ">") = .ok d' →
      d'.name = t.2.1 := by
    intro d' hd
    rw [parse_enclosed_refinement ht] at hd
    obtain ⟨types, -, rfl⟩ := exists_of_map_ok hd
    rfl
  refine within_library (n := 4) hlibrary le_rfl hparse (.inr (.inl ⟨t, ht, hname d hparse⟩)) ?_
  rintro part ⟨d', hd', hmem, -⟩
  exact absurd (hname d' hd' ▸ hmem) hcomposite

/-- Null is no whole number, and neither is the marker of a value left out. -/
lemma not_tests_int_of_absent (hlibrary : HasLibrary r (w.registry r)) (hv : v.isAbsent = true) :
    ∀ w', ¬ Tests r "int" (Stage.presented v) w true w' ∧ ¬ Tests r "int" v w true w' := by
  have hnull : ∀ u, Stage.presented u = .null → ∀ w', ¬ Tests r "int" u w true w' := by
    intro u hu w' h
    rw [tests_refinement_iff hlibrary (t := ("number", "int", .isInt)) (by decide) rfl rfl, hu] at h
    obtain ⟨w₁, hnumber, -⟩ := h
    exact absurd ((tests_number_iff hlibrary.base).1 hnumber).1 (by decide)
  have hpresented : Stage.presented v = .null := by simp [Stage.presented, hv]
  exact fun w' => ⟨hnull _ (by rw [hpresented]; rfl) w', hnull _ hpresented w'⟩

/-- Bounds of which one is missing are refused. -/
lemma typeArguments_of_few {name : String} {optional : Bool} (hfew : types.length < 2) :
    typeArguments ⟨name, .arguments types, optional⟩ 2 = Act.refuse (.fewArguments name 2) := by
  simp [typeArguments, Descriptor.arguments?, hfew]

lemma typeArguments_of_le {name : String} {optional : Bool} (henough : 2 ≤ types.length) :
    typeArguments ⟨name, .arguments types, optional⟩ 2 = pure types := by
  simp [typeArguments, Descriptor.arguments?, Nat.not_lt.2 henough]

/-- Then no value is of the type. -/
lemma not_tests_of_few {t : String × String × NativePredicate} (ht : t ∈ refinements)
    (hp : t.2.2 = .isBounded ∨ t.2.2 = .isBoundedInt) (hlibrary : HasLibrary r (w.registry r))
    (hparse : Descriptor.parse text = .ok ⟨t.2.1, .arguments types, false⟩)
    (hfew : types.length < 2) : ¬ Tests r text v w true w' := by
  rw [tests_refinement_iff hlibrary ht hparse rfl]
  rintro ⟨w₁, -, n, h⟩
  beta_reduce at h
  rcases hp with hp | hp
  · rw [hp, answer, descriptorOf, Act.pure_bind, isBetween, typeArguments_of_few hfew] at h
    simp [Act.returns_bind_iff, Act.refuse, Act.not_returns_throw] at h
  · rw [hp, answer, descriptorOf, Act.pure_bind, typeArguments_of_few hfew] at h
    simp [Act.returns_bind_iff, Act.refuse, Act.not_returns_throw] at h

/-- **A bounded whole number is whole and between the bounds**, if these read. -/
lemma tests_boundedInt_of_split (hlibrary : HasLibrary r (w.registry r))
    (h : splitArguments bounds.toList = .ok types) :
    Tests r ("boundedInt<" ++ bounds ++ ">") v w true w' ↔
      Tests r "int" v w true w' ∧ Tests r ("bounded<" ++ bounds ++ ">") v w true w' := by
  have ht : ("int", "boundedInt", NativePredicate.isBoundedInt) ∈ refinements := by decide
  have ht' : ("number", "bounded", NativePredicate.isBounded) ∈ refinements := by decide
  have hwhole : Descriptor.parse ("boundedInt<" ++ bounds ++ ">") =
      .ok ⟨"boundedInt", .arguments types, false⟩ := by
    simpa [h, Except.map] using parse_enclosed_refinement ht bounds
  have hbetween : Descriptor.parse ("bounded<" ++ bounds ++ ">") =
      .ok ⟨"bounded", .arguments types, false⟩ := by
    simpa [h, Except.map] using parse_enclosed_refinement ht' bounds
  cases hv : v.isAbsent with
  | true =>
    have hnot := not_tests_int_of_absent hlibrary hv
    rw [tests_refinement_iff hlibrary ht hwhole rfl]
    exact iff_of_false (fun ⟨w₁, hint, _⟩ => (hnot w₁).1 hint) fun h => (hnot w').2 h.1
  | false =>
    rcases Nat.lt_or_ge types.length 2 with hfew | henough
    · exact iff_of_false (not_tests_of_few ht (.inr rfl) hlibrary hwhole hfew)
        fun h => not_tests_of_few ht' (.inl rfl) hlibrary hbetween hfew h.2
    have hanswer : ∀ n, isBoundedInt.answer (invoke n) v
        (.descriptor ⟨"boundedInt", .arguments types, false⟩) (membershipTest r) =
          test (invoke n) (membershipTest r) (boundedExpression types) v := by
      intro n
      rw [answer, descriptorOf, Act.pure_bind, typeArguments_of_le henough, Act.pure_bind]
    rw [tests_refinement_iff hlibrary ht hwhole rfl, Stage.presented_of_not_absent hv]
    simp only [hanswer, yields_test_iff, tests_congr (parse_boundedExpression h)]
    constructor
    · rintro ⟨w₁, hint, hbounded⟩
      obtain rfl := (testWithin_int hlibrary).world_eq hint
      obtain rfl := (testWithin_enclosed ht' (by decide) hlibrary bounds).world_eq hbounded
      exact ⟨hint, hbounded⟩
    · rintro ⟨hint, hbounded⟩
      obtain rfl := (testWithin_int hlibrary).world_eq hint
      exact ⟨w', hint, hbounded⟩

/-! ### The law -/

/-- **A bounded whole number is what is both whole and between the bounds**, whatever stands for the
bounds. In a registry with the library the expressions for bounded whole numbers and for bounded
numbers are refused alike, with the same fault. If they are not, every value is tested for both and
for whole numbers with an answer, and the first answer is yes exactly if both others are. -/
theorem tests_boundedInt (hlibrary : HasLibrary r (w.registry r)) (bounds : String) :
    (∀ f, Refuses r ("boundedInt<" ++ bounds ++ ">") w f ↔
      Refuses r ("bounded<" ++ bounds ++ ">") w f) ∧
    ((∃ f, Refuses r ("boundedInt<" ++ bounds ++ ">") w f) ∨
      ∀ v, ∃ b b', Tests r "int" v w b w ∧ Tests r ("bounded<" ++ bounds ++ ">") v w b' w ∧
        Tests r ("boundedInt<" ++ bounds ++ ">") v w (b && b') w) ∧
    ∀ v w', Tests r ("boundedInt<" ++ bounds ++ ">") v w true w' ↔
      Tests r "int" v w true w' ∧ Tests r ("bounded<" ++ bounds ++ ">") v w true w' := by
  have ht : ("int", "boundedInt", NativePredicate.isBoundedInt) ∈ refinements := by decide
  have ht' : ("number", "bounded", NativePredicate.isBounded) ∈ refinements := by decide
  have hint : Known r "int" w := by
    obtain ⟨chain, he⟩ := hlibrary.refinement ("number", "int", .isInt) (by decide)
    exact known_iff.2 ⟨.ofName "int", _, rfl, he⟩
  have hrefuses : ∀ f, Refuses r ("boundedInt<" ++ bounds ++ ">") w f ↔
      Refuses r ("bounded<" ++ bounds ++ ">") w f := fun _ =>
    (refuses_enclosed_iff ht hlibrary).trans (refuses_enclosed_iff ht' hlibrary).symm
  refine ⟨hrefuses, ?_⟩
  rcases hsplit : splitArguments bounds.toList with e | types
  · refine ⟨.inl ⟨_, (refuses_enclosed_iff ht hlibrary).2 ⟨e, hsplit, rfl⟩⟩, fun v w' => ?_⟩
    have hunknown : ∀ t ∈ refinements, ¬ Known r (t.2.1 ++ "<" ++ bounds ++ ">") w := by
      intro t ht h
      obtain ⟨types, htypes⟩ := (known_enclosed_iff ht hlibrary).1 h
      simp [hsplit] at htypes
    exact iff_of_false (fun h => hunknown _ ht h.known) fun h => hunknown _ ht' h.2.known
  · have hboth : ∀ v w', Tests r ("boundedInt<" ++ bounds ++ ">") v w true w' ↔
        Tests r "int" v w true w' ∧ Tests r ("bounded<" ++ bounds ++ ">") v w true w' :=
      fun _ _ => tests_boundedInt_of_split hlibrary hsplit
    refine ⟨.inr fun v => ?_, hboth⟩
    have henclosed : ∀ t ∈ refinements, t.2.1 ∉ compositeNames →
        ∃ b, Tests r (t.2.1 ++ "<" ++ bounds ++ ">") v w b w := fun t ht hcomposite =>
      (testWithin_enclosed ht hcomposite hlibrary bounds).exists_tests
        ((known_enclosed_iff ht hlibrary).2 ⟨types, hsplit⟩) v
    obtain ⟨b, hb⟩ := (testWithin_int hlibrary).exists_tests hint v
    obtain ⟨b', hb'⟩ := henclosed _ ht' (by decide)
    obtain ⟨c, hc⟩ := henclosed _ ht (by decide)
    have hand : c = (b && b') := by
      rw [Bool.eq_iff_iff, Bool.and_eq_true]
      constructor
      · rintro rfl
        obtain ⟨hb₁, hb₁'⟩ := (hboth v w).1 hc
        exact ⟨(hb.unique hb₁).1, (hb'.unique hb₁').1⟩
      · rintro ⟨rfl, rfl⟩
        exact (hc.unique ((hboth v w).2 ⟨hb, hb'⟩)).1
    exact ⟨b, b', hb, hb', hand ▸ hc⟩

/-- Five is between one and ten; a bound with a bracket that is not closed is refused. -/
theorem tests_boundedInt_five :
    let w := libraryWorld
    HasLibrary 0 (w.registry 0) ∧ Tests 0 "boundedInt<1;10>" (.int 5) w true w ∧
      ∃ f, Refuses 0 "boundedInt<1;<10>" w f := by
  intro w
  have hlibrary : HasLibrary 0 (w.registry 0) := installed_libraryWorld.library
  have hbetween : Tests 0 (Descriptor.applied "bounded" [toString (1 : ℤ), toString (10 : ℤ)])
      (.int 5) w true w :=
    (tests_bounded_iff hlibrary).2
      ⟨rfl, 1, 10, held?_of_le (by norm_num), held?_of_le (by norm_num), by norm_num, by norm_num⟩
  have hunclosed : splitArguments "1;<10".toList = .error ⟨.unclosed, some "1;<10"⟩ := by rfl
  have hrefused : Refuses 0 "bounded<1;<10>" w (.signature ⟨.unclosed, some "1;<10"⟩) :=
    (refuses_enclosed_iff (t := ("number", "bounded", .isBounded)) (by decide) hlibrary).2
      ⟨_, hunclosed, rfl⟩
  exact ⟨hlibrary, ((tests_boundedInt hlibrary "1;10").2.2 _ _).2
      ⟨(tests_int_int_iff hlibrary).2 rfl, hbetween⟩,
    _, ((tests_boundedInt hlibrary "1;<10").1 _).2 hrefused⟩

end CallContracts.Registry
