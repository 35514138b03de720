import CallContracts.Proofs.Enforcement.Quiet
import CallContracts.Proofs.Registry.Refinement

/-!
The types that come with the library.

* `Registry.HasLibrary`: a registry that holds the base types and, besides whatever others, the
  refinements and the union of the library; they stay when types are registered
  (`Registry.HasLibrary.extends`);
* `Registry.exists_install`: installing the library in a registry of base types succeeds, adds all
  of them and nothing else;
* `Registry.libraryWorld`: the world with the library alone, in which no test has a side effect;
* `Registry.tests_base_iff`, `Registry.tests_refinement_iff` and `Registry.tests_union_iff`: what a
  test for a type of the library comes to, and `Registry.tests_of_fault`: a predicate that faults
  rejects the value.
-/

namespace CallContracts.Registry

variable {r : RegistryId} {w w' : World}

/-! ### Registries with the library -/

/-- The entry of a refinement of the library below an ancestry. -/
def refinementEntry (r : RegistryId) (chain : String) (t : String × String × NativePredicate) :
    Entry :=
  newEntry chain t.2.1 (refinementPredicate r t.1 (.predicate t.2.2))

/-- A registry that holds the types of the library. -/
structure HasLibrary (r : RegistryId) (reg : Registry) : Prop where
  base : HasBase reg
  refinement : ∀ t ∈ refinements, ∃ chain, reg.find? t.2.1 = some (refinementEntry r chain t)
  union : ∃ chain, reg.find? unionName = some (newEntry chain unionName (predicate .isTaggedUnion))

/-- The types of the library stay in a registry that keeps its entries. -/
lemma HasLibrary.mono {reg reg' : Registry} (h : HasLibrary r reg)
    (hkeeps : ∀ name e, reg.find? name = some e → reg'.find? name = some e) :
    HasLibrary r reg' where
  base t ht := hkeeps _ _ (h.base t ht)
  refinement t ht := by
    obtain ⟨chain, he⟩ := h.refinement t ht
    exact ⟨chain, hkeeps _ _ he⟩
  union := by
    obtain ⟨chain, he⟩ := h.union
    exact ⟨chain, hkeeps _ _ he⟩

lemma HasLibrary.extends (h : HasLibrary r (w.registry r)) (hw : w.Extends w') :
    HasLibrary r (w'.registry r) :=
  h.mono fun _ _ => hw.find?

/-! ### Installing the library -/

/-- The names of refinements and of their parents stand for themselves. -/
lemma plainName_refinement {t : String × String × NativePredicate} (ht : t ∈ refinements) :
    Descriptor.PlainName t.1 ∧ Descriptor.PlainName t.2.1 := by
  have htrimmed : ∀ t ∈ refinements, (Trimmed t.1 ∧ t.1 ≠ unitName) ∧
      Trimmed t.2.1 ∧ t.2.1 ≠ unitName := by decide
  have hchars : ∀ t ∈ refinements, (∀ c ∈ t.1.toList, c ∉ ['<', '>', '[', ']', ':', ',']) ∧
      ∀ c ∈ t.2.1.toList, c ∉ ['<', '>', '[', ']', ':', ','] := by simp [refinements]
  obtain ⟨⟨h₁, h₂⟩, h₃, h₄⟩ := htrimmed t ht
  exact ⟨⟨h₁, (hchars t ht).1, h₂⟩, h₃, (hchars t ht).2, h₄⟩

lemma parent_ne_empty {t : String × String × NativePredicate} (ht : t ∈ refinements) :
    t.1 ≠ "" := by
  have h : ∀ t ∈ refinements, t.1 ≠ "" := by decide
  exact h t ht

/-- The predicates of refinements can take the contract. -/
lemma fits_refinement {t : String × String × NativePredicate} (ht : t ∈ refinements) :
    Enforcer.Fits (.plain (.predicate t.2.2) (refinementTree t.1) (refinementContract t.1) .null
      true) := by
  simp only [refinements, List.mem_cons, List.not_mem_nil, or_false] at ht
  rcases ht with rfl | rfl | rfl | rfl | rfl | rfl <;> rfl

/-- The registration of one refinement of the library. -/
def installRefinement (r : RegistryId) (t : String × String × NativePredicate) : Act Unit := do
  let e ← entry r t.1
  Registry.bind r e.name (.text t.2.1) (predicate t.2.2)

/-- One refinement is added if its parent is there and its name is not. -/
lemma exists_installRefinement {t : String × String × NativePredicate} (ht : t ∈ refinements)
    (hbase : HasBase (w.registry r)) (hparent : (w.registry r).contains t.1 = true)
    (hfresh : (w.registry r).find? t.2.1 = none) :
    ∃ chain reg, (w.registry r).insert? (refinementEntry r chain t) = some reg ∧
      (installRefinement r t).Returns w () (w.setRegistry r reg) := by
  have hblank : ∀ t ∈ refinements, Text.isBlankText t.2.1 = false := by decide
  have hplain := (plainName_refinement ht).1
  obtain ⟨e, he⟩ := Option.isSome_iff_exists.1 hparent
  obtain ⟨reg, hreg⟩ : ∃ reg, (w.registry r).insert?
      (refinementEntry r ((w.registry r).typeChain t.1) t) = some reg := by
    rw [← Option.isSome_iff_exists, insert?_isSome]
    simp [contains, refinementEntry, newEntry, hfresh]
  have hentry : entry r t.1 w = ⟨.ok e, w, []⟩ := by
    simp [entry, Act.registry, Act.world, he, Bind.bind, Act.bind, pure, Act.pure]
  refine ⟨_, reg, hreg, ?_⟩
  rw [installRefinement, Act.returns_bind_of_pure hentry, find?_name he]
  exact returns_bind_fresh (hplain.canonical (parent_ne_empty ht)).readable hplain.ne_unit hbase
    hparent (fits_refinement ht) (hblank t ht) hreg

/-- Each parent is known before its refinement is registered. -/
def Grounded (known : List String) : List (String × String × NativePredicate) → Prop
  | [] => True
  | t :: ts => t.1 ∈ known ∧ Grounded (t.2.1 :: known) ts

/-- What registering refinements one after the other leaves behind. -/
structure Installed (r : RegistryId) (ts : List (String × String × NativePredicate))
    (w w' : World) : Prop where
  grows : w.Extends w'
  found : ∀ t ∈ ts, ∃ chain, (w'.registry r).find? t.2.1 = some (refinementEntry r chain t)
  /-- Other names are as free as before. -/
  others : ∀ name, (∀ t ∈ ts, name ≠ t.2.1) →
    (w'.registry r).find? name = (w.registry r).find? name
  entries : ∀ e ∈ (w'.registry r).entries, e ∈ (w.registry r).entries ∨ Stock r e

lemma exists_each_installRefinement {ts : List (String × String × NativePredicate)}
    {known : List String} (hts : ∀ t ∈ ts, t ∈ refinements) (hbase : HasBase (w.registry r))
    (hgrounded : Grounded known ts)
    (hknown : ∀ name ∈ known, (w.registry r).contains name = true)
    (hnodup : (ts.map fun t => t.2.1).Nodup)
    (hfresh : ∀ t ∈ ts, (w.registry r).find? t.2.1 = none) :
    ∃ us w', (Act.each (installRefinement r) ts).Returns w us w' ∧ Installed r ts w w' := by
  induction ts generalizing w known with
  | nil =>
    exact ⟨[], w, Act.returns_pure_iff.2 ⟨rfl, rfl⟩, .refl w, by simp, fun _ _ => rfl,
      fun _ h => .inl h⟩
  | cons t ts ih =>
    rw [List.forall_mem_cons] at hts hfresh
    rw [List.map_cons, List.nodup_cons] at hnodup
    obtain ⟨chain, reg, hreg, hfirst⟩ :=
      exists_installRefinement hts.1 hbase (hknown _ hgrounded.1) hfresh.1
    have hr : r < w.registries.length := lt_length_of_contains (hknown _ hgrounded.1)
    let w₁ := w.setRegistry r reg
    have hkeeps : w.Extends w₁ := World.IsMove.register hreg
    have hregistry : w₁.registry r = reg := by
      rw [World.registry_setRegistry, if_pos ⟨rfl, hr⟩]
    have hfind : ∀ name, (w₁.registry r).find? name =
        if name = t.2.1 then some (refinementEntry r chain t) else (w.registry r).find? name := by
      intro name
      rw [hregistry]
      exact find?_insert? hreg name
    have hdistinct : ∀ t' ∈ ts, t'.2.1 ≠ t.2.1 := fun t' ht' hname =>
      hnodup.1 (hname ▸ List.mem_map_of_mem ht')
    have hknown' : ∀ name ∈ t.2.1 :: known, (w₁.registry r).contains name = true := by
      rw [List.forall_mem_cons]
      exact ⟨contains_of_find? ((hfind _).trans (if_pos rfl)),
        fun name hname => hkeeps.contains (hknown name hname)⟩
    have hfresh' : ∀ t' ∈ ts, (w₁.registry r).find? t'.2.1 = none := by
      intro t' ht'
      rw [hfind, if_neg (hdistinct t' ht'), hfresh.2 t' ht']
    obtain ⟨us, w', hothers, hinstalled⟩ :=
      ih hts.2 (hbase.extends hkeeps) hgrounded.2 hknown' hnodup.2 hfresh'
    refine ⟨() :: us, w', Act.returns_bind_iff.2 ⟨(), w₁, hfirst, Act.returns_bind_iff.2
      ⟨us, w', hothers, Act.returns_pure_iff.2 ⟨rfl, rfl⟩⟩⟩, hkeeps.trans hinstalled.grows, ?_,
      fun name hname => ?_, fun e he => ?_⟩
    · rw [List.forall_mem_cons]
      refine ⟨⟨chain, hinstalled.grows.find? ?_⟩, hinstalled.found⟩
      rw [hfind, if_pos rfl]
    · rw [List.forall_mem_cons] at hname
      rw [hinstalled.others name hname.2, hfind, if_neg hname.1]
    · rcases hinstalled.entries e he with h | h
      · rw [hregistry, entries_insert? hreg, List.mem_append, List.mem_singleton] at h
        rcases h with h | rfl
        · exact .inl h
        · exact .inr (.refinement _ _ _ _)
      · exact .inr h

/-- What installing the library leaves behind: its types, besides those that were there. -/
structure InstalledLibrary (r : RegistryId) (w w' : World) : Prop where
  library : HasLibrary r (w'.registry r)
  /-- Other names are as free as before. -/
  others : ∀ name, name ≠ unionName → (∀ t ∈ refinements, name ≠ t.2.1) →
    (w'.registry r).find? name = (w.registry r).find? name
  entries : ∀ e ∈ (w'.registry r).entries, e ∈ (w.registry r).entries ∨ Stock r e

/-- **The library can be installed** in a registry that holds the base types and none of the names
of the library; this adds the types of the library and nothing else. -/
theorem exists_install (hbase : HasBase (w.registry r))
    (hfresh : ∀ t ∈ refinements, (w.registry r).find? t.2.1 = none)
    (hunion : (w.registry r).find? unionName = none) :
    ∃ w', (install r).Returns w () w' ∧ InstalledLibrary r w w' := by
  have hknown : ∀ name ∈ baseTypes.map Prod.fst, (w.registry r).contains name = true := by
    intro name hname
    obtain ⟨t, ht, rfl⟩ := List.mem_map.1 hname
    exact hbase.contains ht
  have hgrounded : Grounded (baseTypes.map Prod.fst) refinements := by
    simp [Grounded, refinements, baseTypes]
  obtain ⟨us, w₁, heach, hinstalled⟩ :=
    exists_each_installRefinement (fun _ ht => ht) hbase hgrounded hknown (by decide) hfresh
  have hr : r < w₁.registries.length :=
    lt_length_of_contains (hinstalled.grows.contains (hknown "*" (by decide)))
  have hfree : (w₁.registry r).find? unionName = none := by
    rw [hinstalled.others unionName (by decide), hunion]
  have hcallable : (predicate .isTaggedUnion).isCallable = true := rfl
  obtain ⟨reg, hreg, hextend⟩ := exists_extend (by decide) hcallable hfree
  have hkeeps : w₁.Extends (w₁.setRegistry r reg) := World.IsMove.register hreg
  have hregistry : (w₁.setRegistry r reg).registry r = reg := by
    rw [World.registry_setRegistry, if_pos ⟨rfl, hr⟩]
  refine ⟨w₁.setRegistry r reg, Act.returns_bind_iff.2 ⟨us, w₁, heach, hextend⟩, ⟨?_, ?_, ?_⟩,
    fun name hname hothers => ?_, fun e he => ?_⟩
  · exact hbase.extends (hinstalled.grows.trans hkeeps)
  · intro t ht
    obtain ⟨chain, he⟩ := hinstalled.found t ht
    exact ⟨chain, hkeeps.find? he⟩
  · exact ⟨topName, by rw [hregistry, find?_insert? hreg]; exact if_pos rfl⟩
  · rw [hregistry, find?_insert? hreg]
    exact (if_neg hname).trans (hinstalled.others name hothers)
  · rw [hregistry, entries_insert? hreg, List.mem_append, List.mem_singleton] at he
    rcases he with he | rfl
    · exact hinstalled.entries e he
    · exact .inr (.native _ _ _)

/-- What installing the library in the registry of the base types leaves behind. -/
lemma installedLibrary_of_returns (hbase : w.registry r = base)
    (h : (install r).Returns w () w') : InstalledLibrary r w w' := by
  have hfresh : (∀ t ∈ refinements, base.find? t.2.1 = none) ∧ base.find? unionName = none := by
    decide
  obtain ⟨w₁, hinstall, hinstalled⟩ := exists_install (hbase ▸ hasBase_base) (hbase ▸ hfresh.1)
    (hbase ▸ hfresh.2)
  obtain rfl : w₁ = w' := hinstall.2.symm.trans h.2
  exact hinstalled

/-- Installed in the registry of the base types, the library has nothing but predicates of its
own. -/
lemma InstalledLibrary.stock (h : InstalledLibrary 0 world w) :
    ∀ e ∈ (w.registry 0).entries, Stock 0 e := by
  intro e he
  rcases h.entries e he with h | h
  · obtain ⟨t, -, rfl⟩ := List.mem_map.1 h
    exact .native _ _ _
  · exact h

/-- The world with one registry, that of the library. -/
@[irreducible]
def libraryWorld : World := (install 0 world).world

lemma returns_install_libraryWorld : (install 0).Returns world () libraryWorld := by
  obtain ⟨w, hinstall, -⟩ := exists_install (w := world) (r := 0) hasBase_base (by decide)
    (by decide)
  obtain rfl : libraryWorld = w := by
    unfold libraryWorld
    exact hinstall.2
  exact hinstall

lemma installed_libraryWorld : InstalledLibrary 0 world libraryWorld :=
  installedLibrary_of_returns rfl returns_install_libraryWorld

/-- With the library alone no test has a side effect. -/
lemma sideEffectFree_libraryWorld : SideEffectFree 0 libraryWorld :=
  sideEffectFree_of_stock installed_libraryWorld.stock

/-! ### Asking the library -/

section asking

variable {name text : String} {chain : String} {d : Descriptor} {v u : Value} {p : NativePredicate}

lemma rising_answer (p : NativePredicate) (v descriptor membership : Value) :
    Act.Rising fun n => p.answer (invoke n) v descriptor membership := fun _ _ h =>
  p.congr_answer (invoke_approximates h) v descriptor membership

/-- What a call of a predicate of the library returns is its answer. -/
lemma answers_predicate_iff :
    Answers (predicate p) ([v, .descriptor d, membershipTest r].take (predicate p).predicateArity) w
        u w' ↔
      Act.Yields (fun n => p.answer (invoke n) v (.descriptor d) (membershipTest r)) w u w' := by
  rw [Answers, ← Act.Yields, ← Act.yields_shift_iff (rising_invoke _ _ _) 1]
  simp only [invoke_predicate]

/-- A predicate of the library holds if its answer counts as true. -/
lemma yields_holds_predicate_iff :
    Act.Yields (fun n => holds (invoke n) r
        ⟨name, predicate p, chain, (predicate p).predicateArity⟩ d v) w true w' ↔
      ∃ answer, Act.Yields (fun n => p.answer (invoke n) v (.descriptor d) (membershipTest r)) w
        answer w' ∧ answer.truth w'.heap = true := by
  simp only [← answers_predicate_iff]
  constructor
  · rintro ⟨n, h⟩
    obtain ⟨answer, hanswer, htruth⟩ := returns_holds_iff.1 h
    exact ⟨answer, ⟨n, hanswer⟩, htruth⟩
  · rintro ⟨answer, ⟨n, hanswer⟩, htruth⟩
    exact ⟨n, returns_holds_iff.2 ⟨answer, hanswer, htruth⟩⟩

/-- If the predicate of a type of the library faults, the value is not of the type. -/
lemma tests_of_fault (hparse : Descriptor.parse text = .ok d)
    (he : (w.registry r).find? d.name =
      some ⟨name, predicate p, chain, (predicate p).predicateArity⟩) {n : ℕ} {f : Fault}
    {es : List Event} (h : p.answer (invoke n) v (.descriptor d) (membershipTest r) w =
      ⟨.error (.fault f), w', es⟩) : Tests r text v w false w' := by
  have hask : Entry.ask (invoke (n + 1)) ⟨name, predicate p, chain, (predicate p).predicateArity⟩
      r v (.descriptor d) w = ⟨.error (.fault f), w', es⟩ := by
    rw [Entry.ask, Entry.arguments, invoke_predicate, h]
  exact (tests_iff hparse he).2 ⟨n + 1, returns_holds_of_fault hask⟩

/-- A computation whose result becomes a truth value. -/
lemma yields_bool_iff {x : ℕ → Act Bool} {b : Bool} :
    Act.Yields (fun n => x n >>= fun b => pure (Value.bool b)) w (.bool b) w' ↔
      Act.Yields x w b w' := by
  simp [Act.Yields, Act.returns_bind_iff, Act.returns_pure_iff]

/-- A type of the base. -/
lemma tests_base_iff {t : String × NativePredicate × String} (hbase : HasBase (w.registry r))
    (ht : t ∈ baseTypes) (hparse : Descriptor.parse text = .ok d) (hname : d.name = t.1) :
    Tests r text v w true w' ↔
      ∃ answer, Act.Yields (fun n => t.2.1.answer (invoke n) v (.descriptor d) (membershipTest r))
        w answer w' ∧ answer.truth w'.heap = true := by
  rw [tests_iff hparse (hname ▸ hbase t ht)]
  exact yields_holds_predicate_iff

/-- The union of the library. -/
lemma tests_union_iff (hlibrary : HasLibrary r (w.registry r))
    (hparse : Descriptor.parse text = .ok d) (hname : d.name = unionName) :
    Tests r text v w true w' ↔
      ∃ answer, Act.Yields (fun n => NativePredicate.isTaggedUnion.answer (invoke n) v
        (.descriptor d) (membershipTest r)) w answer w' ∧ answer.truth w'.heap = true := by
  obtain ⟨chain, he⟩ := hlibrary.union
  rw [tests_iff hparse (hname ▸ he)]
  exact yields_holds_predicate_iff

/-- **A refinement of the library** asks for the parent's type first, and then its predicate must
answer that this is true. -/
lemma tests_refinement_iff {t : String × String × NativePredicate}
    (hlibrary : HasLibrary r (w.registry r)) (ht : t ∈ refinements)
    (hparse : Descriptor.parse text = .ok d) (hname : d.name = t.2.1) :
    Tests r text v w true w' ↔ ∃ w₁, Tests r t.1 (Stage.presented v) w true w₁ ∧
      Act.Yields (fun n => t.2.2.answer (invoke n) v (.descriptor d) (membershipTest r)) w₁
        (.bool true) w' := by
  have hparent : ∀ t ∈ refinements, (∃ b ∈ baseTypes, b.1 = t.1) ∨ ∃ t' ∈ refinements,
      t'.2.1 = t.1 := by decide
  obtain ⟨parentEntry, hparentEntry⟩ : ∃ e, (w.registry r).find? t.1 = some e := by
    rcases hparent t ht with ⟨b, hb, hbt⟩ | ⟨t', ht', htt⟩
    · exact ⟨_, hbt ▸ hlibrary.base b hb⟩
    · obtain ⟨chain, he⟩ := hlibrary.refinement t' ht'
      exact ⟨_, htt ▸ he⟩
  have harity : ∀ p : NativePredicate, 1 ≤ (predicate p).predicateArity := by
    intro p
    cases p <;> decide
  have hparse' := (plainName_refinement ht).1.parse_eq (parent_ne_empty ht)
  obtain ⟨chain, he⟩ := hlibrary.refinement t ht
  rw [tests_iff hparse (hname ▸ he)]
  simp only [tests_iff hparse' hparentEntry, ← answers_predicate_iff]
  have hrequired : (Descriptor.ofName t.1).optional = false := rfl
  exact yields_holds_enforcedOn_iff hlibrary.base hrequired hparentEntry (harity t.2.2)

end asking

end CallContracts.Registry
