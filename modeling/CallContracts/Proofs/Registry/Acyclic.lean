import CallContracts.Proofs.Registry.Nesting
import CallContracts.Proofs.Registry.Synonym

/-!
Tests end if names are not circular.

A name that is registered for an expression is resolved anew for each test, and so are the names in
the arguments of the expression. If these were known when the name was registered, they stand for
expressions over older names still.

* `Registry.Acyclic`: a registry with the library, in which names were registered for expressions
  over names that were known before;
* `Registry.nesting`: a depth for a test, from the lengths of the expression and of those that names
  were registered for;
* `Registry.Acyclic.within`: **names nest to a depth of their own**, by induction on the
  registrations;
* `Registry.tests_end`: **every test of an expression that resolves ends**, at this depth.
-/

namespace CallContracts.Registry

open Act NativePredicate

variable {r : RegistryId} {w w' : World} {aliases : List (String × String)} {name text : String}
  {d : Descriptor} {v : Value}

/-! ### Registries without circular names -/

/-- A registry of the base types and the library, in which names were registered for expressions,
the last one first. All names in the arguments of an expression for an array, a tuple or a union, at
any depth, were registered before. What else happens to the world does not matter. -/
inductive Acyclic (r : RegistryId) : List (String × String) → World → Prop
  | library {w w' : World} : w.registry r = base → (install r).Returns w () w' → Acyclic r [] w'
  | synonym {aliases : List (String × String)} {w w' : World} {name text : String} {n : ℕ}
    {args : List Value} {kw : Call.Keywords Value} {u : Value} :
    Acyclic r aliases w →
      (∀ part d, Relation.TransGen Part text part → Descriptor.parse part = .ok d →
        (w.registry r).contains d.name = true) →
      Call.bind Operation.alias.parameters args kw =
        some [.given (.text name), .given (.text text)] →
      (invoke n (.function (.operation r .alias)) args kw).Returns w u w' →
      Acyclic r ((name, text) :: aliases) w'
  | elsewhere {aliases : List (String × String)} {w w' : World} :
    Acyclic r aliases w → w'.registry r = w.registry r → Acyclic r aliases w'

/-- The length of the expressions that names were registered for, with one more for each name. -/
def weight (aliases : List (String × String)) : ℕ :=
  (aliases.map fun a => a.2.length + 1).sum

/-- A depth for the test of an expression. -/
def nesting (aliases : List (String × String)) (text : String) : ℕ :=
  4 * (text.length + weight aliases + 2)

/-- After installing the library in the registry of the base types all names are of the library. -/
lemma ofLibrary_of_contains (hbase : w.registry r = base) (hinstalled : InstalledLibrary r w w')
    (hname : (w'.registry r).contains name = true) : OfLibrary name := by
  by_contra hother
  simp only [OfLibrary, not_or, not_exists, not_and] at hother
  obtain ⟨hnotbase, hrefinements, hunion⟩ := hother
  obtain ⟨e, he⟩ := Option.isSome_iff_exists.1 hname
  rw [hinstalled.others name hunion hrefinements, hbase] at he
  obtain ⟨t, ht, rfl⟩ := List.mem_map.1 (List.mem_of_find?_eq_some he)
  exact hnotbase t ht (find?_name he).symm

namespace Acyclic

lemma hasLibrary (h : Acyclic r aliases w) : HasLibrary r (w.registry r) := by
  induction h with
  | library hbase hinstall => exact (installedLibrary_of_returns hbase hinstall).library
  | synonym _ _ _ hcall ih => exact ih.extends (hcall.2 ▸ invoke_extends _ _ _ _ _)
  | elsewhere _ hsame ih => exact hsame ▸ ih

/-- **Names nest to a depth of their own.** In a registry that keeps the entries of an acyclic one,
a name that is known there is of the library or nests to a depth that the registrations bound,
whatever arguments it is asked with. -/
lemma within (h : Acyclic r aliases w) (hname : (w.registry r).contains d.name = true)
    (hkeeps : ∀ name e, (w.registry r).find? name = some e → (w'.registry r).find? name = some e)
    (hother : ¬ OfLibrary d.name) : Within r w' (4 * (weight aliases + 2)) d := by
  -- by induction on the registrations: a name is registered for an expression over older names
  induction h generalizing d with
  | library hbase hinstall =>
    exact absurd (ofLibrary_of_contains hbase (installedLibrary_of_returns hbase hinstall) hname)
      hother
  | @synonym aliases w₀ w name text n args kw u hacyclic hparts hgiven hcall ih =>
    obtain ⟨d₀, e₀, chain, hparse, he₀, hentries⟩ := exists_of_returns_alias hgiven hcall
    have hgrows : w₀.Extends w := hcall.2 ▸ invoke_extends n _ _ _ w₀
    have hkeeps₀ : ∀ name e, (w₀.registry r).find? name = some e →
        (w'.registry r).find? name = some e := fun _ _ he => hkeeps _ _ (hgrows.find? he)
    have hweight : weight ((name, text) :: aliases) = text.length + 1 + weight aliases := by
      simp [weight]
    by_cases hnew : d.name = name
    · -- the new name: its expression resolves, and so do the names in its arguments
      have htext : TestWithin r w' (4 * text.length + 4 * (weight aliases + 2)) text := by
        refine testWithin_of_names (P := fun name => (w₀.registry r).contains name = true)
          (by omega) (hacyclic.hasLibrary.mono hkeeps₀)
          (fun d hknown hlibrary => ih hknown hkeeps₀ hlibrary) fun part d hpart hparsed _ => ?_
        rcases Relation.reflTransGen_iff_eq_or_transGen.1 hpart with rfl | hpart
        · obtain rfl := Except.ok.inj (hparse.symm.trans hparsed)
          exact contains_of_find? he₀
        · exact hparts part d hpart hparsed
      have hentry : (w'.registry r).find? d.name =
          some (newEntry chain name (.function (.tester r e₀ d₀))) :=
        hkeeps _ _ (by rw [hentries, if_pos hnew])
      exact (within_tester hentry (hkeeps₀ _ _ he₀) (htext d₀ hparse)).mono (by omega)
    · -- an older name
      have hold : (w₀.registry r).contains d.name = true := by
        rwa [contains, hentries, if_neg hnew] at hname
      exact (ih hold hkeeps₀ hother).mono (by omega)
  | elsewhere _ hsame ih => exact ih (hsame ▸ hname) (hsame ▸ hkeeps) hother

/-- The test for an expression finishes. -/
lemma testWithin (h : Acyclic r aliases w) (text : String) :
    TestWithin r w (nesting aliases text) text := by
  have hwithin : TestWithin r w (4 * text.length + 4 * (weight aliases + 2)) text :=
    testWithin_of_names (P := fun name => (w.registry r).contains name = true) (by omega)
      h.hasLibrary (fun d hknown hother => h.within hknown (fun _ _ he => he) hother)
      fun _ _ _ _ hknown => hknown
  exact hwithin.mono (by rw [nesting]; omega)

end Acyclic

/-! ### The law -/

/-- **Tests end.** In a registry of the base types and the library, in which names were registered
for expressions over names that were known before, the test of any value for any expression that
resolves answers with a truth value and leaves the world as it is, as soon as calls may nest to a
depth that the expression and the registered names alone determine. -/
theorem tests_end (h : Acyclic r aliases w) (hknown : Known r text w) (v : Value) :
    ∃ b, ∀ n, nesting aliases text < n →
      (test (invoke n) (membershipTest r) text v).Returns w (.bool b) w := by
  obtain ⟨b, hb⟩ := (h.testWithin text).exists_returns hknown v
  refine ⟨b, fun n hn => ?_⟩
  obtain ⟨m, rfl⟩ := Nat.exists_eq_add_of_lt hn
  have hdeeper := (rising_isMember r text v).returns (Nat.le_add_right _ m) hb
  rw [test_succ]
  exact returns_bind_iff.2 ⟨b, w, hdeeper, returns_pure_iff.2 ⟨rfl, rfl⟩⟩

/-- What stands in an expression for pairs over a name. -/
lemma eq_of_transGen_part (leaf : String) {part : String}
    (hparse : Descriptor.parse text = .ok ⟨"tuple", .arguments [leaf, leaf], false⟩)
    (hleaf : Descriptor.parse leaf = .ok (.ofName leaf)) (h : Relation.TransGen Part text part) :
    part = leaf := by
  induction h with
  | single hpart =>
    obtain ⟨d, hd, -, hmem⟩ := hpart
    obtain rfl := Except.ok.inj (hparse.symm.trans hd)
    simpa [Descriptor.arguments?] using hmem
  | tail _ hpart ih =>
    obtain ⟨d, hd, -, hmem⟩ := hpart
    obtain rfl := Except.ok.inj (hleaf.symm.trans (ih ▸ hd))
    simp [Descriptor.arguments?, Descriptor.ofName] at hmem

/-- Lists of segments of the plane: whatever a value is, a program has depth enough to test it. -/
theorem tests_end_segments :
    let call (name text : String) :=
      invoke 1 (.function (.operation 0 .alias)) [.text name, .text text] []
    let w₁ := (call "point" "tuple<number;number>" libraryWorld).world
    let w₂ := (call "segment" "tuple<point;point>" w₁).world
    Acyclic 0 [("segment", "tuple<point;point>"), ("point", "tuple<number;number>")] w₂ ∧
      Known 0 "array<segment>" w₂ ∧
        ∀ v, ∃ b, (test invokeValue (membershipTest 0) "array<segment>" v).Returns w₂ (.bool b)
          w₂ := by
  intro call w₁ w₂
  obtain ⟨hfirst, hsecond, hpoint⟩ :
      (call "point" "tuple<number;number>" libraryWorld).outcome.toOption.isSome = true ∧
        (call "segment" "tuple<point;point>" w₁).outcome.toOption.isSome = true ∧
          (w₁.registry 0).contains "point" = true := by
    decide +kernel
  obtain ⟨u₁, hu₁⟩ := Option.isSome_iff_exists.1 hfirst
  obtain ⟨u₂, hu₂⟩ := Option.isSome_iff_exists.1 hsecond
  have hlibrary : Acyclic 0 [] libraryWorld := .library rfl returns_install_libraryWorld
  have hpoints : Acyclic 0 [("point", "tuple<number;number>")] w₁ := by
    refine .synonym hlibrary (fun part d hpart hd => ?_) rfl (Act.returns_of_toOption hu₁)
    obtain rfl := eq_of_transGen_part "number" rfl rfl hpart
    obtain rfl : .ofName "number" = d := Except.ok.inj hd
    exact hlibrary.hasLibrary.base.contains (t := ("number", .isNumber, "* -> number")) (by decide)
  have hsegments : Acyclic 0
      [("segment", "tuple<point;point>"), ("point", "tuple<number;number>")] w₂ := by
    refine .synonym hpoints (fun part d hpart hd => ?_) rfl (Act.returns_of_toOption hu₂)
    obtain rfl := eq_of_transGen_part "point" rfl rfl hpart
    obtain rfl : .ofName "point" = d := Except.ok.inj hd
    exact hpoint
  have hknown : Known 0 "array<segment>" w₂ :=
    known_iff.2 ⟨⟨"array", .arguments ["segment"], false⟩, _, rfl,
      hsegments.hasLibrary.base ("array", .isArray, "* -> object -> array") (by decide)⟩
  have hdepth : nesting [("segment", "tuple<point;point>"), ("point", "tuple<number;number>")]
      "array<segment>" < callDepth := by decide
  refine ⟨hsegments, hknown, fun v => ?_⟩
  obtain ⟨b, hb⟩ := tests_end hsegments hknown v
  exact ⟨b, hb callDepth hdepth⟩

end CallContracts.Registry
