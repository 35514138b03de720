import CallContracts.Proofs.Registry.Composite

/-!
The union of several types.

The members of a union are tested one after the other, and the first one that accepts a value
decides. A member whose type is not known is no member that rejects: it ends the test of the union,
which then does not hold.

* `Registry.Rejected`: the members of a list reject a value, one after the other;
* `Registry.tests_union_of_unknown`: a union rejects every value if its first member is not known;
* `Registry.tests_union`: **a union holds of a value that a member accepts, if all members before it
  reject it**; if all members answer, that is the union of the members in any order;
* `Registry.not_forall_tests_union`: in general the order of the members matters.
-/

namespace CallContracts.Registry

open Signature.Grammar Text

variable {r : RegistryId} {w w' : World} {v : Value} {members members' : List String}

/-- The types of a list reject a value: one after the other, each test ends and answers that the
value is not of the type. -/
inductive Rejected (r : RegistryId) (v : Value) : List String → World → World → Prop
  | nil {w : World} : Rejected r v [] w w
  | cons {t : String} {ts : List String} {w w₁ w' : World} :
    Tests r t v w false w₁ → Rejected r v ts w₁ w' → Rejected r v (t :: ts) w w'

/-- The first member that accepts a value decides. -/
lemma yields_any_isMember_iff :
    Act.Yields (fun n => Act.any (fun t => isMember (invoke n) r t v) (members.map trimText)) w true
        w' ↔
      ∃ before t after w₁, members = before ++ t :: after ∧ Rejected r v before w w₁ ∧
        Tests r t v w₁ true w' := by
  have hrising := fun t => rising_isMember r t v
  have htests : ∀ {t : String} {b : Bool} {w w' : World},
      Act.Yields (fun n => isMember (invoke n) r (trimText t) v) w b w' ↔ Tests r t v w b w' := by
    intro t b w w'
    rw [← tests_trimText_iff, tests_iff_isMember]
    rfl
  induction members generalizing w with
  | nil => simp [Act.any, Act.yields_const_iff, Act.returns_pure_iff]
  | cons t ts ih =>
    rw [List.map_cons, Act.yields_any_cons_iff hrising, htests]
    simp only [htests, ih, true_and]
    constructor
    · rintro (h | ⟨w₁, hreject, before, u, after, w₂, rfl, hbefore, h⟩)
      · exact ⟨[], t, ts, w, rfl, .nil, h⟩
      · exact ⟨t :: before, u, after, w₂, rfl, .cons hreject hbefore, h⟩
    · rintro ⟨before, u, after, w₂, hmembers, hbefore, h⟩
      cases hbefore with
      | nil =>
        obtain ⟨rfl, -⟩ := List.cons.inj hmembers
        exact .inl h
      | cons hreject hbefore =>
        obtain ⟨rfl, rfl⟩ := List.cons.inj hmembers
        exact .inr ⟨_, hreject, _, u, after, w₂, rfl, hbefore, h⟩

lemma parse_union (hne : members ≠ []) (hnested : ∀ t ∈ members, Nested [';'] t.toList) :
    Descriptor.parse (Descriptor.applied unionName members) =
      .ok ⟨unionName, .arguments (members.map trimText), false⟩ :=
  Descriptor.parse_applied ⟨by decide, by simp [unionName], by decide⟩ hne hnested

/-- The predicate of a union asks for its members one after the other. -/
lemma answer_union (n : ℕ) :
    NativePredicate.isTaggedUnion.answer (invoke (n + 1)) v
        (.descriptor ⟨unionName, .arguments (members.map trimText), false⟩) (membershipTest r) =
      Act.any (fun t => isMember (invoke n) r t v) (members.map trimText) >>= fun b =>
        pure (.bool b) := by
  rw [NativePredicate.answer, NativePredicate.descriptorOf, Act.pure_bind]
  simp only [truth_test]
  rfl

/-- A union asks its members, as they are written but for blanks around them. -/
lemma tests_union_applied_iff (hlibrary : HasLibrary r (w.registry r)) (hne : members ≠ [])
    (hnested : ∀ t ∈ members, Nested [';'] t.toList) :
    Tests r (Descriptor.applied unionName members) v w true w' ↔
      ∃ before t after w₁, members = before ++ t :: after ∧ Rejected r v before w w₁ ∧
        Tests r t v w₁ true w' := by
  rw [tests_union_iff hlibrary (parse_union hne hnested) rfl, ← yields_any_isMember_iff]
  simp only [← Act.yields_shift_iff (rising_answer .isTaggedUnion _ _ _) 1, answer_union]
  constructor
  · rintro ⟨answer, ⟨n, h⟩, htruth⟩
    obtain ⟨b, w₁, hb, hpure⟩ := Act.returns_bind_iff.1 h
    obtain ⟨rfl, rfl⟩ := Act.returns_pure_iff.1 hpure
    obtain rfl : b = true := htruth
    exact ⟨n, hb⟩
  · intro h
    exact ⟨.bool true, yields_bool_iff.2 h, rfl⟩

/-- A member that is not known, in front of the others, ends the test of a union. -/
lemma tests_union_of_unknown {t : String} {ts : List String}
    (hlibrary : HasLibrary r (w.registry r)) (hnested : ∀ u ∈ t :: ts, Nested [';'] u.toList)
    (h : ¬ Known r t w) :
    Tests r (Descriptor.applied unionName (t :: ts)) v w false w := by
  obtain ⟨f, hresolve⟩ := resolve_of_unknown (mt known_trimText_iff.1 h)
  obtain ⟨chain, he⟩ := hlibrary.union
  have hfault : NativePredicate.isTaggedUnion.answer (invoke 1) v
      (.descriptor ⟨unionName, .arguments ((t :: ts).map trimText), false⟩) (membershipTest r) w =
        ⟨.error (.fault f), w, []⟩ := by
    rw [answer_union, List.map_cons]
    exact Act.bind_of_error (Act.bind_of_error (Act.bind_of_error hresolve))
  exact tests_of_fault (parse_union (List.cons_ne_nil t ts) hnested) he hfault

/-- If all members answer, and without side effects, the members before one that accepts a value are
rejected up to the first that accepts it. -/
lemma exists_first_iff (hquiet : SideEffectFree r w)
    (hanswers : ∀ t ∈ members, ∃ b w', Tests r t v w b w') :
    (∃ before t after w₁, members = before ++ t :: after ∧ Rejected r v before w w₁ ∧
        Tests r t v w₁ true w') ↔ w' = w ∧ ∃ t ∈ members, Tests r t v w true w := by
  induction members with
  | nil => simp
  | cons t ts ih =>
    rw [List.forall_mem_cons] at hanswers
    obtain ⟨⟨b, w₁, hfirst⟩, hothers⟩ := hanswers
    obtain rfl := hquiet.world_eq hfirst
    constructor
    · rintro ⟨before, u, after, w₂, hmembers, hbefore, h⟩
      cases hbefore with
      | nil =>
        obtain ⟨rfl, -⟩ := List.cons.inj hmembers
        obtain rfl := hquiet.world_eq h
        exact ⟨rfl, t, List.mem_cons_self, h⟩
      | cons hreject hbefore =>
        obtain ⟨rfl, rfl⟩ := List.cons.inj hmembers
        obtain rfl := hquiet.world_eq hreject
        obtain ⟨hw, u', hu', h⟩ := (ih hothers).1 ⟨_, u, after, w₂, rfl, hbefore, h⟩
        exact ⟨hw, u', List.mem_cons_of_mem _ hu', h⟩
    · rintro ⟨rfl, u, hu, h⟩
      cases b with
      | true => exact ⟨[], t, ts, w', rfl, .nil, hfirst⟩
      | false =>
        have hu' : u ∈ ts := by
          rcases List.mem_cons.1 hu with rfl | hu'
          · exact absurd (hfirst.unique h).1 Bool.false_ne_true
          · exact hu'
        obtain ⟨before, u, after, w₂, rfl, hbefore, h⟩ := (ih hothers).2 ⟨rfl, u, hu', h⟩
        exact ⟨t :: before, u, after, w₂, rfl, .cons hfirst hbefore, h⟩

/-- **The first member of a union that accepts a value decides.** A union holds of a value exactly
if some member accepts it, and each member before that one, tested one after the other, answers
that it rejects the value. Without side effects, and if all members answer, this is so exactly if
some member accepts the value, and so it is the same for every permutation of the members. -/
theorem tests_union (hlibrary : HasLibrary r (w.registry r)) (hne : members ≠ [])
    (hnested : ∀ t ∈ members, Nested [';'] t.toList) :
    (∀ v w', Tests r (Descriptor.applied unionName members) v w true w' ↔
      ∃ before t after w₁, members = before ++ t :: after ∧ Rejected r v before w w₁ ∧
        Tests r t v w₁ true w') ∧
    (SideEffectFree r w → ∀ v, (∀ t ∈ members, ∃ b w', Tests r t v w b w') → ∀ w',
      (Tests r (Descriptor.applied unionName members) v w true w' ↔
        w' = w ∧ ∃ t ∈ members, Tests r t v w true w) ∧
      ∀ members', members'.Perm members →
        (Tests r (Descriptor.applied unionName members') v w true w' ↔
          Tests r (Descriptor.applied unionName members) v w true w')) := by
  refine ⟨fun _ _ => tests_union_applied_iff hlibrary hne hnested,
    fun hquiet v hanswers w' => ?_⟩
  have hunion : ∀ members', members'.Perm members →
      (Tests r (Descriptor.applied unionName members') v w true w' ↔
        w' = w ∧ ∃ t ∈ members, Tests r t v w true w) := by
    intro members' hperm
    rw [tests_union_applied_iff hlibrary (fun h => hne (by simpa [h] using hperm))
      (fun t ht => hnested t (hperm.subset ht)),
      exists_first_iff hquiet fun t ht => hanswers t (hperm.subset ht)]
    simp only [hperm.mem_iff]
  exact ⟨hunion members (.refl _), fun members' hperm =>
    (hunion members' hperm).trans (hunion members (.refl _)).symm⟩

/-- A number, in a registry with the library: it is a text or a number, in either order. -/
theorem tests_union_number :
    let w := libraryWorld
    HasLibrary 0 (w.registry 0) ∧ SideEffectFree 0 w ∧
      Tests 0 "taggedUnion<string;number>" (.int 5) w true w ∧
        Tests 0 "taggedUnion<number;string>" (.int 5) w true w := by
  intro w
  have hlibrary : HasLibrary 0 (w.registry 0) := installed_libraryWorld.library
  have hquiet : SideEffectFree 0 w := sideEffectFree_libraryWorld
  have hnumber : Tests 0 "number" (.int 5) w true w :=
    tests_base_of_answer (t := ("number", .isNumber, "* -> number")) (by decide) (by decide)
      hlibrary.base rfl
  have hstring : Tests 0 "string" (.int 5) w false w :=
    tests_base_of_answer (t := ("string", .isString, "* -> string")) (by decide) (by decide)
      hlibrary.base rfl
  have hnested : ∀ t ∈ ["string", "number"], Nested [';'] t.toList := by
    simp only [List.forall_mem_cons, List.not_mem_nil, false_imp_iff, implies_true, and_true]
    exact ⟨nested_plain (by simp), nested_plain (by simp)⟩
  have hanswers : ∀ t ∈ ["string", "number"], ∃ b w', Tests 0 t (.int 5) w b w' := by
    simp only [List.forall_mem_cons, List.not_mem_nil, false_imp_iff, implies_true, and_true]
    exact ⟨⟨_, _, hstring⟩, _, _, hnumber⟩
  obtain ⟨hunion, hperm⟩ :=
    (tests_union hlibrary (by simp) hnested).2 hquiet (.int 5) hanswers w
  have h : Tests 0 "taggedUnion<string;number>" (.int 5) w true w :=
    hunion.2 ⟨rfl, "number", by simp, hnumber⟩
  exact ⟨hlibrary, hquiet, h, (hperm ["number", "string"] (.swap _ _ _)).2 h⟩

/-- In general a union does not hold of all values that a member accepts, and it depends on the
order of the members: an unknown member in front of the one that accepts a value ends the test. -/
theorem not_forall_tests_union :
    (¬ ∀ (r : RegistryId) (w : World) (members : List String) (v : Value),
      HasLibrary r (w.registry r) → SideEffectFree r w → members ≠ [] →
        (∀ t ∈ members, Nested [';'] t.toList) →
          ((∃ w', Tests r (Descriptor.applied unionName members) v w true w') ↔
            ∃ t ∈ members, ∃ w', Tests r t v w true w')) ∧
    ¬ ∀ (r : RegistryId) (w : World) (members members' : List String) (v : Value),
      HasLibrary r (w.registry r) → SideEffectFree r w → members ≠ [] →
        (∀ t ∈ members, Nested [';'] t.toList) → members'.Perm members →
          ((∃ w', Tests r (Descriptor.applied unionName members') v w true w') ↔
            ∃ w', Tests r (Descriptor.applied unionName members) v w true w') := by
  obtain ⟨hlibrary, hothers, -⟩ := installed_libraryWorld
  have hquiet := sideEffectFree_libraryWorld
  generalize libraryWorld = w at hlibrary hothers hquiet
  have hnumber : Tests 0 "number" (.int 5) w true w :=
    tests_base_of_answer (t := ("number", .isNumber, "* -> number")) (by decide) (by decide)
      hlibrary.base rfl
  have hunknown : ¬ Known 0 "nope" w :=
    not_known_of_free rfl (hothers "nope" (by decide) (by decide))
  have hnested : ∀ t ∈ ["nope", "number"], Nested [';'] t.toList := by
    simp only [List.forall_mem_cons, List.not_mem_nil, false_imp_iff, implies_true, and_true]
    exact ⟨nested_plain (by simp), nested_plain (by simp)⟩
  have hrejects :
      ¬ ∃ w', Tests 0 (Descriptor.applied unionName ["nope", "number"]) (.int 5) w true w' := by
    rintro ⟨w', h⟩
    exact absurd (h.unique (tests_union_of_unknown hlibrary hnested hunknown)).1 (by decide)
  have haccepts :
      Tests 0 (Descriptor.applied unionName ["number", "nope"]) (.int 5) w true w := by
    refine (tests_union_applied_iff hlibrary (by simp) fun t ht => hnested t ?_).2
      ⟨[], "number", ["nope"], w, rfl, .nil, hnumber⟩
    simpa [or_comm] using ht
  refine ⟨fun hall => hrejects ?_, fun hall => hrejects ?_⟩
  · exact (hall 0 w _ (.int 5) hlibrary hquiet (by simp) hnested).2
      ⟨"number", by simp, w, hnumber⟩
  · exact (hall 0 w _ _ (.int 5) hlibrary hquiet (by simp) hnested (.swap _ _ _)).1 ⟨w, haccepts⟩

end CallContracts.Registry
