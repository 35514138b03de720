import CallContracts.Proofs.Registry.Lineage
import CallContracts.Proofs.Registry.Synonym
import CallContracts.Proofs.Session.Facade

/-!
Environments from setups.

An environment starts with the base types, perhaps those of the library, and the aliases of its
setup, which are registered one after the other.

* `Throughout`: a property of each item of a list and those before it, which holds of all items or
  fails at a first one (`exists_first_of_not_throughout`);
* `Setup.Admits`: an alias that can be registered where some names are known, and `Setup.Rejects`:
  the fault of one that cannot, the first that applies;
* `Setup.Admissible`: each alias of a setup can be registered after those before it, and
  `Setup.FailsWith`: the fault of the first one that cannot;
* `Registry.exists_each_addAlias` and `Registry.outcome_each_addAlias`: aliases are registered as
  far as they can be, by induction on them;
* `Environment.outcome_withFacade`: **a setup builds an environment just if all its aliases can be
  registered**, with the types that it names in their order, and fails with its first alias
  otherwise.
-/

namespace CallContracts

open Registry (Lineage Records)

/-! ### Items and those before them -/

section throughout

variable {α : Type} {P : List α → α → Prop} {a : α} {as : List α}

/-- A property of each item of a list and the items before it. -/
def Throughout (P : List α → α → Prop) (as : List α) : Prop :=
  ∀ before a after, as = before ++ a :: after → P before a

lemma throughout_nil : Throughout P [] := fun before a after h => by simp at h

lemma throughout_cons :
    Throughout P (a :: as) ↔ P [] a ∧ Throughout (fun before => P (a :: before)) as := by
  refine ⟨fun h => ⟨h [] a as rfl, fun before b after hb => h (a :: before) b after (by simp [hb])⟩,
    fun ⟨hfirst, hrest⟩ before b after h => ?_⟩
  rcases before with _ | ⟨a', before⟩
  · obtain ⟨rfl, -⟩ := List.cons_eq_cons.1 h
    exact hfirst
  · obtain ⟨rfl, hb⟩ := List.cons_eq_cons.1 h
    exact hrest before b after hb

/-- What does not hold throughout fails at a first item. -/
lemma exists_first_of_not_throughout (h : ¬ Throughout P as) :
    ∃ before a after, as = before ++ a :: after ∧ Throughout P before ∧ ¬ P before a := by
  induction as generalizing P with
  | nil => exact absurd throughout_nil h
  | cons a as ih =>
    by_cases hfirst : P [] a
    · rw [throughout_cons, not_and] at h
      obtain ⟨before, b, after, rfl, hbefore, hb⟩ := ih (h hfirst)
      exact ⟨a :: before, b, after, rfl, throughout_cons.2 ⟨hfirst, hbefore⟩, hb⟩
    · exact ⟨[], a, as, rfl, throughout_nil, hfirst⟩

end throughout

/-- Steps of which one fails, after others that return. -/
lemma Act.outcome_each_append {α β : Type} {f : α → Act β} {as as' : List α} {bs : List β}
    {w w' : World} {stop : Stop} (h : (each f as).Returns w bs w')
    (hstop : (each f as' w').outcome = .error stop) :
    (each f (as ++ as') w).outcome = .error stop := by
  induction as generalizing w bs with
  | nil =>
    obtain ⟨-, rfl⟩ := returns_pure_iff.1 h
    exact hstop
  | cons a as ih =>
    obtain ⟨b, w₁, hfirst, h⟩ := returns_bind_iff.1 h
    obtain ⟨bs', w₂, hrest, hpure⟩ := returns_bind_iff.1 h
    obtain ⟨-, rfl⟩ := returns_pure_iff.1 hpure
    rw [List.cons_append, each, hfirst.outcome_bind, outcome_bind, ih hrest]
    rfl

/-! ### Setups -/

namespace Setup

variable {s : Setup} {known : List String} {a : String × String} {f : Fault}

/-- The names that are known before the aliases. -/
def groundNames (s : Setup) : List String :=
  Registry.baseTypes.map Prod.fst ++
    if s.extendedTypes then Registry.refinements.map (fun t => t.2.1) ++ [Registry.unionName]
    else []

/-- The names that are known once some aliases are registered. -/
def namesAfter (s : Setup) (aliases : List (String × String)) : List String :=
  s.groundNames ++ aliases.map Prod.fst

/-- An alias that can be registered where some names are known. -/
structure Admits (known : List String) (a : String × String) : Prop where
  head : ∃ d, Descriptor.parse a.2 = .ok d ∧ d.name ∈ known
  written : Text.isBlankText a.1 = false
  fresh : a.1 ∉ known

/-- The fault of an alias that cannot be registered where some names are known. The expression is
looked at before the name. -/
inductive Rejects (known : List String) (a : String × String) : Fault → Prop
  | unread {f : SignatureFault} : Descriptor.parse a.2 = .error f → Rejects known a (.signature f)
  | unknown {d : Descriptor} : Descriptor.parse a.2 = .ok d → d.name ∉ known →
    Rejects known a (.unknownType (.text d.name))
  | blank {d : Descriptor} : Descriptor.parse a.2 = .ok d → d.name ∈ known →
    Text.isBlankText a.1 = true → Rejects known a (.refusal .blankName)
  | taken {d : Descriptor} : Descriptor.parse a.2 = .ok d → d.name ∈ known →
    Text.isBlankText a.1 = false → a.1 ∈ known → Rejects known a (.duplicateType a.1)

/-- Each alias can be registered after those before it. -/
def Admissible (s : Setup) : Prop :=
  Throughout (fun before => Admits (s.namesAfter before)) s.aliases

/-- The fault of the first alias that cannot be registered after those before it. -/
def FailsWith (s : Setup) (f : Fault) : Prop :=
  ∃ before a after, s.aliases = before ++ a :: after ∧
    Throughout (fun before => Admits (s.namesAfter before)) before ∧
      Rejects (s.namesAfter before) a f

lemma exists_rejects (h : ¬ Admits known a) : ∃ f, Rejects known a f := by
  cases hparse : Descriptor.parse a.2 with
  | error f => exact ⟨_, .unread hparse⟩
  | ok d =>
    by_cases hhead : d.name ∈ known
    · cases hblank : Text.isBlankText a.1 with
      | true => exact ⟨_, .blank hparse hhead hblank⟩
      | false =>
        by_cases hfresh : a.1 ∈ known
        · exact ⟨_, .taken hparse hhead hblank hfresh⟩
        · exact absurd ⟨⟨d, hparse, hhead⟩, hblank, hfresh⟩ h
    · exact ⟨_, .unknown hparse hhead⟩

lemma exists_failsWith (h : ¬ s.Admissible) : ∃ f, s.FailsWith f := by
  obtain ⟨before, a, after, haliases, hbefore, ha⟩ := exists_first_of_not_throughout h
  obtain ⟨f, hf⟩ := exists_rejects ha
  exact ⟨f, before, a, after, haliases, hbefore, hf⟩

/-- The types that are there before the aliases, and their parents. -/
def groundParents (s : Setup) : List (String × String) :=
  Registry.baseParents ++ if s.extendedTypes then Registry.libraryParents else []

lemma groundNames_eq (s : Setup) :
    s.groundNames = Registry.topName :: s.groundParents.map Prod.fst := by
  rw [groundNames, groundParents]
  cases s.extendedTypes <;> decide

/-- The ledger of a registry without aliases tells which names are known. -/
lemma namesAfter_eq {r : RegistryId} {w : World} (h : Lineage r s.groundParents w) :
    s.namesAfter = fun aliases => (w.registry r).names ++ aliases.map Prod.fst := by
  funext aliases
  rw [namesAfter, groundNames_eq, h.ancestry.names]

/-- An alias and the name that its expression reads as. -/
def link (a : String × String) : String × String :=
  (a.1, ((Descriptor.parse a.2).toOption.map Descriptor.name).getD "")

end Setup

/-! ### Registering aliases -/

namespace Registry

variable {r : RegistryId} {w w' : World} {ledger links : List (String × String)}
  {a : String × String} {as before after : List (String × String)} {f : Fault}

lemma Lineage.names (h : Lineage r ledger w) :
    (w.registry r).names = topName :: ledger.map Prod.fst :=
  h.ancestry.names

/-- Registering an alias puts it below the name that its expression reads as. -/
lemma records_addAlias (a : String × String) :
    Records r [Setup.link a] (addAlias r (.text a.1) (.text a.2)) := by
  intro ledger w h
  cases hparse : Descriptor.parse a.2 with
  | error f =>
    have hstop : addAlias r (.text a.1) (.text a.2) w =
        ⟨.error (.fault (.signature f)), w, []⟩ := by
      refine Act.bind_of_error ?_
      rw [resolve_text, hparse]
    rw [hstop]
    exact ⟨.refl, [], List.nil_prefix, by simpa using h, by simp⟩
  | ok d =>
    have hlink : Setup.link a = (a.1, d.name) := by simp [Setup.link, hparse, Except.toOption]
    rw [hlink]
    exact h.step (.synonym hparse) rfl rfl

/-- A call of the operation registers an alias. -/
lemma returns_alias_iff :
    (invoke 1 (.function (.operation r .alias)) [.text a.1, .text a.2] []).Returns w .null w' ↔
      (addAlias r (.text a.1) (.text a.2)).Returns w () w' := by
  have hvalues : Call.values Operation.alias.parameters [.text a.1, .text a.2] [] w =
      ⟨.ok [.text a.1, .text a.2], w, []⟩ := rfl
  exact (returns_operation_iff hvalues).trans Act.returns_bind_pure_iff

/-- An alias that can be registered is. -/
lemma exists_addAlias (h : Setup.Admits (w.registry r).names a) :
    ∃ w', (addAlias r (.text a.1) (.text a.2)).Returns w () w' := by
  obtain ⟨d, hparse, hd⟩ := h.head
  obtain ⟨e, he⟩ := Option.isSome_iff_exists.1 (contains_iff_mem_names.2 hd)
  have hfree : (w.registry r).contains a.1 = false := by
    rw [← Bool.not_eq_true, contains_iff_mem_names]
    exact h.fresh
  obtain ⟨w', hcall⟩ := exists_alias (known_iff.2 ⟨d, e, hparse, he⟩) h.written hfree
  exact ⟨w', returns_alias_iff.1 hcall⟩

/-- One that cannot be is rejected with its fault. -/
lemma outcome_addAlias (h : Setup.Rejects (w.registry r).names a f) :
    (addAlias r (.text a.1) (.text a.2) w).outcome = .error (.fault f) := by
  have hresolved : ∀ d, Descriptor.parse a.2 = .ok d → d.name ∈ (w.registry r).names →
      ∃ chain p, addAlias r (.text a.1) (.text a.2) w =
        registerBelow r chain (.text a.1) (.function p) w := by
    intro d hparse hd
    obtain ⟨e, he⟩ := Option.isSome_iff_exists.1 (contains_iff_mem_names.2 hd)
    rw [addAlias, Act.bind_of_pure (resolve_of_parse hparse he)]
    exact ⟨_, _, rfl⟩
  cases h with
  | @unread e hparse =>
    have hresolve : resolve r (.text a.2) w = ⟨.error (.fault (.signature e)), w, []⟩ := by
      rw [resolve_text, hparse]
    rw [addAlias, Act.bind_of_error hresolve]
  | @unknown d hparse hd =>
    have hresolve : resolve r (.text a.2) w =
        ⟨.error (.fault (.unknownType (.text d.name))), w, []⟩ := by
      rw [resolve_text]
      simp only [hparse, find?_eq_none_iff.2 hd]
    rw [addAlias, Act.bind_of_error hresolve]
  | blank hparse hd hblank =>
    obtain ⟨chain, p, hadd⟩ := hresolved _ hparse hd
    rw [hadd]
    simp [registerBelow, register, Value.text?, hblank, Act.refuse, Act.throw]
  | taken hparse hd hblank htaken =>
    obtain ⟨chain, p, hadd⟩ := hresolved _ hparse hd
    have hnone : ∀ predicate chain n, (w.registry r).insert? ⟨a.1, predicate, chain, n⟩ = none := by
      intro predicate chain n
      rw [← Option.not_isSome_iff_eq_none, insert?_isSome, contains_iff_mem_names.2 htaken]
      simp
    rw [hadd]
    simp [registerBelow, register, Value.text?, hblank, Value.isCallable, hnone, Act.throw,
      Act.world, Bind.bind, Act.bind]

/-- What a computation that records returns leaves behind. -/
lemma Records.returns {α : Type} {x : Act α} {b : α} (hx : Records r links x)
    (h : Lineage r ledger w) (hreturns : x.Returns w b w') : Lineage r (ledger ++ links) w' := by
  obtain ⟨-, more, -, hlineage, hall⟩ := hx ledger w h
  rw [← hall b hreturns.1]
  exact hreturns.2 ▸ hlineage

/-- Registering aliases puts each below the name that its expression reads as. -/
lemma records_each_addAlias (as : List (String × String)) :
    Records r (as.map Setup.link)
      (Act.each (fun a : String × String => addAlias r (.text a.1) (.text a.2)) as) :=
  records_each as records_addAlias

/-- A ledger that aliases were added to has their names at its end. -/
lemma Lineage.names_append {w' : World} (hw : Lineage r ledger w) (as : List (String × String))
    (hw' : Lineage r (ledger ++ as.map Setup.link) w') :
    (w'.registry r).names = (w.registry r).names ++ as.map Prod.fst := by
  rw [hw'.names, hw.names]
  simp [Setup.link]

/-- **Aliases that can be registered one after the other are.** -/
lemma exists_each_addAlias (hw : Lineage r ledger w)
    (h : Throughout (fun before => Setup.Admits ((w.registry r).names ++ before.map Prod.fst))
      as) :
    ∃ us w', (Act.each (fun a : String × String => addAlias r (.text a.1) (.text a.2))
      as).Returns w us w' := by
  induction as generalizing w ledger with
  | nil => exact ⟨[], w, Act.returns_pure_iff.2 ⟨rfl, rfl⟩⟩
  | cons a as ih =>
    obtain ⟨hfirst, hrest⟩ := throughout_cons.1 h
    obtain ⟨w₁, hadd⟩ := exists_addAlias (by simpa using hfirst)
    have hw₁ : Lineage r (ledger ++ [Setup.link a]) w₁ := (records_addAlias a).returns hw hadd
    have hnames := hw.names_append [a] hw₁
    obtain ⟨us, w', hreturns⟩ := ih hw₁ (by simpa [hnames] using hrest)
    exact ⟨() :: us, w', Act.returns_bind_iff.2 ⟨(), w₁, hadd, Act.returns_bind_iff.2
      ⟨us, w', hreturns, Act.returns_pure_iff.2 ⟨rfl, rfl⟩⟩⟩⟩

/-- **The first alias that cannot be registered** is where it ends. -/
lemma outcome_each_addAlias (hw : Lineage r ledger w)
    (hbefore : Throughout
      (fun before => Setup.Admits ((w.registry r).names ++ before.map Prod.fst)) before)
    (ha : Setup.Rejects ((w.registry r).names ++ before.map Prod.fst) a f) :
    (Act.each (fun a : String × String => addAlias r (.text a.1) (.text a.2))
      (before ++ a :: after) w).outcome = .error (.fault f) := by
  obtain ⟨us, w₁, hreturns⟩ := exists_each_addAlias hw hbefore
  have hw₁ := (records_each_addAlias before).returns hw hreturns
  have hnames := hw.names_append before hw₁
  refine Act.outcome_each_append hreturns ?_
  rw [Act.each, Act.outcome_bind, outcome_addAlias (hnames ▸ ha)]
  rfl

end Registry

/-! ### Building environments -/

namespace Environment

open Setup

variable {s : Setup} {r : RegistryId} {w w' : World} {ledger : List (String × String)} {f : Fault}

/-- The registry of an environment before its aliases are registered: it has the types of the base,
and of the library if it is asked for, and the environment is what it is furnished to. -/
structure Grounds (s : Setup) (w : World) (r : RegistryId) (w₁ : World) : Prop where
  lineage : Lineage r s.groundParents w₁
  base : Registry.HasBase (w₁.registry r)
  installed : s.extendedTypes = true →
    ∃ w₀, w₀.registry r = Registry.base ∧ (Registry.install r).Returns w₀ () w₁
  outcome : (withFacade s w).outcome = (furnish s r w₁).outcome
  world : (withFacade s w).world = (furnish s r w₁).world

lemma exists_grounds (s : Setup) (w : World) : ∃ r w₁, Grounds s w r w₁ := by
  obtain ⟨w₁, es, hcreate, hreg⟩ := Registry.registry_create w
  have hcreated := Act.returns_of_eq hcreate
  have hlineage : Lineage w.registries.length Registry.baseParents w₁ := .created hcreated
  have hbase : Registry.HasBase (w₁.registry w.registries.length) :=
    hreg ▸ Registry.hasBase_base
  cases hextended : s.extendedTypes with
  | false =>
    refine ⟨_, w₁, ?_, hbase, by simp [hextended], ?_, ?_⟩
    · simpa [groundParents, hextended] using hlineage
    · simp [withFacade_eq, hcreated.outcome_bind, hextended]
    · simp [withFacade_eq, hcreated.world_bind, hextended]
  | true =>
    obtain ⟨w₂, hinstall, hinstalled⟩ := Registry.exists_install hbase
      (by rw [hreg]; decide) (by rw [hreg]; decide)
    refine ⟨_, w₂, ?_, hinstalled.library.base, fun _ => ⟨w₁, hreg, hinstall⟩, ?_, ?_⟩
    · simpa [groundParents, hextended] using
        (Registry.records_install _).returns hlineage hinstall
    · simp [withFacade_eq, hcreated.outcome_bind, hinstall.outcome_bind, hextended]
    · simp [withFacade_eq, hcreated.world_bind, hinstall.world_bind, hextended]

/-- An environment is furnished if its aliases can be registered. -/
lemma returns_furnish {us : List Unit} (hw : Lineage r ledger w)
    (hbase : Registry.HasBase (w.registry r))
    (haliases : (Act.each (fun a : String × String => Registry.addAlias r (.text a.1) (.text a.2))
      s.aliases).Returns w us w') :
    (furnish s r).Returns w ⟨r, contracts.map fun c => (c.1, enforced r c.1 c.2)⟩ w' := by
  have hextends : w.Extends w' :=
    haliases.2 ▸ (Registry.records_each_addAlias s.aliases ledger w hw).1.extends
  have hoffers : (Act.each (fun c : Operation × String => offer r c.1 c.2) contracts).Returns w'
      (contracts.map fun c => (c.1, enforced r c.1 c.2)) w' :=
    returns_each contracts fun c hc => returns_offer hc (hbase.extends hextends)
  exact Act.returns_bind_iff.2 ⟨us, w', haliases, Act.returns_bind_iff.2 ⟨_, w', hoffers,
    ⟨rfl, rfl⟩⟩⟩

/-- An admissible setup builds an environment, and the ledger of its registry is known. -/
lemma exists_of_admissible (h : s.Admissible) (w : World) : ∃ env w',
    (withFacade s).Returns w env w' ∧
      Lineage env.registry (s.groundParents ++ s.aliases.map Setup.link) w' := by
  obtain ⟨r, w₁, hg⟩ := exists_grounds s w
  rw [Admissible, namesAfter_eq hg.lineage] at h
  obtain ⟨us, w', haliases⟩ := Registry.exists_each_addAlias hg.lineage h
  obtain ⟨hout, hend⟩ := returns_furnish hg.lineage hg.base haliases
  exact ⟨_, w', ⟨hg.outcome.trans hout, hg.world.trans hend⟩,
    (Registry.records_each_addAlias s.aliases).returns hg.lineage haliases⟩

/-- A setup that is not fails with its first alias that cannot be registered. -/
lemma outcome_of_failsWith (h : s.FailsWith f) (w : World) :
    (withFacade s w).outcome = .error (.fault f) := by
  obtain ⟨r, w₁, hg⟩ := exists_grounds s w
  obtain ⟨before, a, after, haliases, hbefore, ha⟩ := h
  rw [namesAfter_eq hg.lineage] at hbefore ha
  rw [hg.outcome, furnish, haliases, Act.outcome_bind,
    Registry.outcome_each_addAlias hg.lineage hbefore ha]
  rfl

/-- **Building an environment from a setup.** It succeeds just if each alias, in order, has an
expression that reads as a type of the base, of the library if it is asked for, or of an alias
before it, and has a name that is not blank and not yet taken. The registry then has exactly these
types, in this order, and the ancestry of an alias is that of the type that its expression reads as,
extended by its name. Otherwise building ends with the fault of the first alias that is at odds with
this: its expression does not read, or reads as a type that is not there, or its name is blank, or
it is taken, whichever applies first. -/
theorem outcome_withFacade (s : Setup) (w : World) :
    ((∃ env w', (withFacade s).Returns w env w') ↔ s.Admissible) ∧
    (∀ env w', (withFacade s).Returns w env w' →
      (w'.registry env.registry).names = s.namesAfter s.aliases ∧
      ∀ a ∈ s.aliases, ∃ d, Descriptor.parse a.2 = .ok d ∧
        (w'.registry env.registry).typeChain a.1 =
          Registry.chainBelow ((w'.registry env.registry).typeChain d.name) a.1) ∧
    (∀ f, (withFacade s w).outcome = .error (.fault f) ↔ s.FailsWith f) ∧
    (withFacade s w).outcome ≠ .error .exhausted := by
  by_cases hadmissible : s.Admissible
  · obtain ⟨env, w', hreturns, hw'⟩ := exists_of_admissible hadmissible w
    have hnever : ∀ f, ¬ s.FailsWith f := fun f hf => by
      simpa [hreturns.1] using outcome_of_failsWith hf w
    refine ⟨⟨fun _ => hadmissible, fun _ => ⟨env, w', hreturns⟩⟩, ?_, fun f => ?_, ?_⟩
    · rintro env' w'' ⟨henv, rfl⟩
      obtain rfl := Except.ok.inj (hreturns.1.symm.trans henv)
      rw [hreturns.2]
      refine ⟨?_, fun a ha => ?_⟩
      · rw [hw'.names, namesAfter, groundNames_eq]
        simp [Setup.link]
      · obtain ⟨before, after, haliases⟩ := List.append_of_mem ha
        obtain ⟨d, hparse, -⟩ := (hadmissible before a after haliases).head
        have hlink : Setup.link a = (a.1, d.name) := by simp [Setup.link, hparse, Except.toOption]
        refine ⟨d, hparse, hw'.ancestry.chain (a.1, d.name) ?_⟩
        exact List.mem_append_right _ (hlink ▸ List.mem_map_of_mem ha)
    · simp [hreturns.1, hnever f]
    · simp [hreturns.1]
  · obtain ⟨f, hf⟩ := exists_failsWith hadmissible
    have hfails := outcome_of_failsWith hf w
    have hnone : ∀ env w', ¬ (withFacade s).Returns w env w' := by simp [Act.Returns, hfails]
    refine ⟨⟨?_, fun h => absurd h hadmissible⟩, fun env w' h => absurd h (hnone env w'),
      fun f' => ⟨fun h => ?_, fun h => outcome_of_failsWith h w⟩, by simp [hfails]⟩
    · rintro ⟨env, w', h⟩
      exact absurd h (hnone env w')
    · obtain rfl : f = f' := by simpa [hfails] using h
      exact hf

end Environment

end CallContracts
