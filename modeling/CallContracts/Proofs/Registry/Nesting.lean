import CallContracts.Proofs.Registry.Composite
import CallContracts.Proofs.World.Finishing

/-!
How deeply calls nest when a value is tested.

The predicates of the library ask the membership test about other expressions, those of the parts of
a value and, for bounded whole numbers, one for the bounds. Nothing else makes a test nest.

* `Registry.Within`: the predicate of a type finishes at a depth, whatever value it is asked about,
  and `Registry.TestWithin`: so does the test for an expression;
* `Registry.within_native`, `Registry.within_refinement` and `Registry.within_tester`: how much
  deeper the types of the library nest, and other names for expressions;
* `Registry.testWithin_of_names`: **the depth of a test grows with the length of the expression**,
  by induction on it, if the types that are not of the library nest to a depth that is known.
-/

namespace CallContracts.Registry

open Act NativePredicate

variable {r : RegistryId} {w : World} {n m : ℕ} {d d' : Descriptor} {e : Entry}
  {text chain name : String} {p : NativePredicate}

/-- The predicate of a type finishes at a depth, whatever value it is asked about. -/
def Within (r : RegistryId) (w : World) (n : ℕ) (d : Descriptor) : Prop := Asked @Finishes r w n d

/-- So does the predicate of the type that an expression reads as, if it reads at all. -/
def TestWithin (r : RegistryId) (w : World) (n : ℕ) (text : String) : Prop :=
  Tested @Finishes r w n text

lemma Within.mono (h : Within r w n d) (hnm : n ≤ m) : Within r w m d :=
  fun e he v => (h e he v).mono (invoke_approximates hnm _ _ _)

lemma TestWithin.mono (h : TestWithin r w n text) (hnm : n ≤ m) : TestWithin r w m text :=
  fun d hparse => Within.mono (h d hparse) hnm

/-- A test that finishes answers with a truth value, if its expression is known. -/
lemma TestWithin.exists_returns (h : TestWithin r w n text) (hknown : Known r text w) (v : Value) :
    ∃ b, (isMember (invoke n) r text v).Returns w b w := by
  have hfinishes : (isMember (invoke n) r text v).Finishes w := trait_isMember h
  obtain ⟨d, e, hparse, he⟩ := known_iff.1 hknown
  refine hfinishes.exists_returns fun f hf => ?_
  rw [isMember_fault_iff, resolve_of_parse hparse he] at hf
  simp at hf

lemma TestWithin.exists_tests (h : TestWithin r w n text) (hknown : Known r text w) (v : Value) :
    ∃ b, Tests r text v w b w := by
  obtain ⟨b, hb⟩ := h.exists_returns hknown v
  exact ⟨b, tests_iff_isMember.2 ⟨n, hb⟩⟩

/-- A test that finishes leaves the world as it is. -/
lemma TestWithin.world_eq {v : Value} {b : Bool} {w' : World} (h : TestWithin r w n text)
    (htests : Tests r text v w b w') : w' = w := by
  obtain ⟨b', hb'⟩ := h.exists_tests htests.known v
  exact (htests.unique hb').2

/-! ### Entries -/

/-- A predicate of the library, as it is, nests two calls deeper than the tests that it asks for. -/
lemma within_native (he : (w.registry r).find? d.name =
      some ⟨name, predicate p, chain, (predicate p).predicateArity⟩)
    (h : ∀ t ∈ p.parts d, TestWithin r w n t) : Within r w (n + 2) d := by
  intro e hfound v
  obtain rfl := Option.some.inj (he.symm.trans hfound)
  rw [Entry.ask, Entry.arguments, invoke_predicate]
  exact trait_answer p h

/-- The base types that ask for no test. -/
lemma within_base {t : String × NativePredicate × String} (ht : t ∈ baseTypes)
    (hbase : HasBase (w.registry r)) (hname : d.name = t.1) (hparts : t.2.1.parts d = []) :
    Within r w 2 d :=
  within_native (n := 0) (hname ▸ hbase t ht) (by simp [hparts])

/-- Another name for an expression nests one call deeper. -/
lemma within_tester (he : (w.registry r).find? d.name =
      some (newEntry chain name (.function (.tester r e d'))))
    (he' : (w.registry r).find? d'.name = some e) (h : Within r w n d') :
    Within r w (n + 1) d := by
  intro entry hfound v
  obtain rfl := Option.some.inj (he.symm.trans hfound)
  have hask : (newEntry chain name (.function (.tester r e d'))).ask (invoke (n + 1)) r v
      (.descriptor d) = holds (invoke n) r e d' v >>= fun b => pure (.bool b) := invoke_tester
  rw [hask]
  exact trait_bind (trait_holds (h e he' v)) fun _ _ => trait_pure _

/-- A refinement of the library nests two calls deeper than its predicate, and one deeper than the
type of its parent. -/
lemma within_refinement {t : String × String × NativePredicate} (ht : t ∈ refinements)
    (hlibrary : HasLibrary r (w.registry r)) (hname : d.name = t.2.1)
    (hparent : Within r w (n + 3) (.ofName t.1))
    (h : ∀ part ∈ t.2.2.parts d, TestWithin r w n part) : Within r w (n + 4) d := by
  intro e hfound v
  obtain ⟨chain, he⟩ := hlibrary.refinement t ht
  obtain rfl := Option.some.inj (he.symm.trans (hname ▸ hfound))
  have hbase : HasBase (w.registry r) := hlibrary.base
  have hobject : Within r w 2 ⟨"object", .plain, true⟩ :=
    within_base (t := ("object", .isObject, "* -> object")) (by decide) hbase rfl rfl
  have hfunction : Within r w 2 ⟨"function", .plain, true⟩ :=
    within_base (t := ("function", .isFunction, "* -> function")) (by decide) hbase rfl rfl
  have hboolean : TestWithin r w 2 "boolean" := by
    intro result hparse
    obtain rfl : .ofName "boolean" = result := Except.ok.inj hparse
    exact within_base (t := ("boolean", .isBoolean, "* -> boolean")) (by decide) hbase rfl rfl
  rw [Entry.ask, Entry.arguments, refinementEntry, newEntry, refinementPredicate,
    predicateArity_enforced]
  refine Enforcer.trait_enforced (fun required hrequired => ?_) ?_ ?_
  · -- the parent, a descriptor and the membership test
    obtain rfl | rfl | rfl : required = .ofName t.1 ∨ required = ⟨"object", .plain, true⟩ ∨
        required = ⟨"function", .plain, true⟩ := by
      simpa [Signed.tree, Tree.parameters?, refinementTree, refinementRest] using hrequired
    · exact hparent
    · exact hobject.mono (by omega)
    · exact hfunction.mono (by omega)
  · show TestWithin r w (n + 3) "boolean"
    exact hboolean.mono (by omega)
  · rw [Enforcer.invoke_plain (n + 2) rfl, ← predicate, invoke_predicate]
    exact trait_answer t.2.2 h

/-! ### Expressions -/

/-- The types whose arguments are tested. -/
def compositeNames : List String := ["array", "tuple", unionName]

/-- An expression is an argument of another one for an array, a tuple or a union. -/
def Part (text part : String) : Prop :=
  ∃ d, Descriptor.parse text = .ok d ∧ d.name ∈ compositeNames ∧ part ∈ d.arguments?.getD []

/-- The names of the types of the library. -/
def OfLibrary (name : String) : Prop :=
  (∃ t ∈ baseTypes, name = t.1) ∨ (∃ t ∈ refinements, name = t.2.1) ∨ name = unionName

lemma Part.length_lt {part : String} (h : Part text part) : part.length < text.length := by
  obtain ⟨d, hparse, -, hpart⟩ := h
  exact (Descriptor.of_mem_arguments hparse hpart).2

/-- A refinement of the numbers asks for no test. -/
lemma within_number {t : String × String × NativePredicate} (ht : t ∈ refinements)
    (hparent : t.1 = "number") (hlibrary : HasLibrary r (w.registry r)) (hname : d.name = t.2.1) :
    Within r w 4 d := by
  have hnumber : Within r w 2 (.ofName "number") :=
    within_base (t := ("number", .isNumber, "* -> number")) (by decide) hlibrary.base rfl rfl
  have hparts : ∀ t ∈ refinements, t.1 = "number" → ∀ d, t.2.2.parts d = [] := by
    simp [refinements, NativePredicate.parts]
  exact within_refinement (n := 0) ht hlibrary hname (hparent ▸ hnumber.mono (by decide))
    (by simp [hparts t ht hparent])

/-- The parents of the refinements of the library. -/
lemma within_parent {t : String × String × NativePredicate} (ht : t ∈ refinements)
    (hlibrary : HasLibrary r (w.registry r)) : Within r w 4 (.ofName t.1) := by
  have hparents : ∀ t ∈ refinements, t.1 = "int" ∨
      ∃ b ∈ baseTypes, b.1 = t.1 ∧ b.2.1.parts (.ofName t.1) = [] := by
    decide
  rcases hparents t ht with hint | ⟨b, hb, hname, hparts⟩
  · exact within_number (t := ("number", "int", .isInt)) (by decide) rfl hlibrary hint
  · exact (within_base hb hlibrary.base hname.symm hparts).mono (by decide)

/-- The expression for the bounds of a whole number. -/
lemma testWithin_boundedExpression {types : List String} (hlibrary : HasLibrary r (w.registry r))
    (hnested : ∀ t ∈ types, Signature.Grammar.Nested [';'] t.toList) :
    TestWithin r w 4 (NativePredicate.boundedExpression types) := by
  have ht : ("number", "bounded", NativePredicate.isBounded) ∈ refinements := by decide
  have hwritten : NativePredicate.boundedExpression types =
      Descriptor.applied "bounded" types := rfl
  intro d hparse
  refine within_number ht rfl hlibrary ?_
  rw [hwritten] at hparse
  rcases types with _ | ⟨t, ts⟩
  · have hempty : Descriptor.parse (Descriptor.applied "bounded" []) =
        .ok ⟨"bounded", .arguments [""], false⟩ := by rfl
    rw [← Except.ok.inj (hempty.symm.trans hparse)]
  · rw [Descriptor.parse_applied (plainName_refinement ht).2 (by simp) hnested] at hparse
    rw [← Except.ok.inj hparse]

/-- **A type of the library** nests at most four calls deeper than the tests of its parts. -/
lemma within_library (hlibrary : HasLibrary r (w.registry r)) (hn : 4 ≤ n)
    (hparse : Descriptor.parse text = .ok d) (hname : OfLibrary d.name)
    (h : ∀ part, Part text part → TestWithin r w n part) : Within r w (n + 4) d := by
  have hparts : d.name ∈ compositeNames → ∀ part ∈ d.arguments?.getD [], TestWithin r w n part :=
    fun hcomposite part hpart => h part ⟨d, hparse, hcomposite, hpart⟩
  rcases hname with ⟨t, ht, hname⟩ | ⟨t, ht, hname⟩ | hname
  · have hbase : ∀ t ∈ baseTypes, t.2.1.parts d = [] ∨
        t.1 ∈ compositeNames ∧ t.2.1.parts d = d.arguments?.getD [] := by
      simp [baseTypes, NativePredicate.parts, compositeNames]
    have hwithin : Within r w (n + 2) d := by
      refine within_native (hname ▸ hlibrary.base t ht) fun part hpart => ?_
      rcases hbase t ht with hnone | ⟨hcomposite, hall⟩
      · simp [hnone] at hpart
      · exact hparts (hname ▸ hcomposite) part (hall ▸ hpart)
    exact hwithin.mono (by omega)
  · have hrefinements : ∀ t ∈ refinements, t.2.2.parts d = [] ∨
        t.2.1 ∈ compositeNames ∧ t.2.2.parts d = d.arguments?.getD [] ∨
          t.2.2.parts d = [NativePredicate.boundedExpression (d.arguments?.getD [])] := by
      simp [refinements, NativePredicate.parts, compositeNames]
    refine within_refinement ht hlibrary hname ((within_parent ht hlibrary).mono (by omega))
      fun part hpart => ?_
    rcases hrefinements t ht with hnone | ⟨hcomposite, hall⟩ | hbounds
    · simp [hnone] at hpart
    · exact hparts (hname ▸ hcomposite) part (hall ▸ hpart)
    · obtain rfl := List.mem_singleton.1 (hbounds ▸ hpart)
      refine (testWithin_boundedExpression hlibrary fun part hpart => ?_).mono hn
      exact (Descriptor.of_mem_arguments hparse hpart).1
  · obtain ⟨chain, he⟩ := hlibrary.union
    have hwithin : Within r w (n + 2) d :=
      within_native (p := .isTaggedUnion) (hname ▸ he) (hparts (by simp [hname, compositeNames]))
    exact hwithin.mono (by omega)

/-- **The depth of a test grows with the length of the expression**, if the other types among the
names in it nest to a depth that is known. -/
lemma testWithin_of_names {K : ℕ} (hK : 8 ≤ K) {P : String → Prop}
    (hlibrary : HasLibrary r (w.registry r))
    (hothers : ∀ d, P d.name → ¬ OfLibrary d.name → Within r w K d)
    (hnames : ∀ part d, Relation.ReflTransGen Part text part → Descriptor.parse part = .ok d →
      (w.registry r).contains d.name = true → P d.name) :
    TestWithin r w (4 * text.length + K) text := by
  -- by induction on the length: the arguments of an expression are shorter than it
  induction hlength : text.length using Nat.strong_induction_on generalizing text with
  | _ k ih =>
    intro d hparse
    by_cases hname : OfLibrary d.name
    · obtain ⟨n, hn⟩ : ∃ n, 4 * k + K = n + 4 := ⟨4 * k + K - 4, by omega⟩
      rw [hn]
      refine within_library hlibrary (by omega) hparse hname fun part hpart => ?_
      have hshorter := hpart.length_lt
      exact (ih _ (hlength ▸ hshorter) (fun inner d hinner => hnames inner d (.head hpart hinner))
        rfl).mono (by omega)
    · intro e he v
      have hknown := hnames text d .refl hparse (contains_of_find? he)
      exact ((hothers d hknown hname).mono (by omega)) e he v

end CallContracts.Registry
