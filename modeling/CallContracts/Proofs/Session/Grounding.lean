import CallContracts.Proofs.Registry.Acyclic
import CallContracts.Proofs.Session.Furnishing

/-!
Setups without circular names.

* `Setup.Grounded`: the expression of each alias of a setup speaks, at any depth, of names that are
  known before it;
* `Environment.acyclic_of_grounded`: **the registry of such a setup has no circular names**, by
  induction on the aliases;
* `Setup.admissible_shipped` and `Setup.grounded_shipped`: the setup that the command line starts
  with is of this kind.
-/

namespace CallContracts

open Registry (Acyclic Lineage)

/-- The names in the arguments of the expression of each alias, at any depth, are known before
it. -/
def Setup.Grounded (s : Setup) : Prop :=
  Throughout (fun before a => ∀ part d, Relation.TransGen Registry.Part a.2 part →
    Descriptor.parse part = .ok d → d.name ∈ s.namesAfter before) s.aliases

namespace Registry.Acyclic

variable {r : RegistryId} {w w' : World} {ledger aliases as : List (String × String)}
  {us : List Unit}

/-- Aliases of which each speaks of names that are known before it leave a registry without circular
names. -/
lemma each_addAlias (h : Acyclic r aliases w) (hw : Lineage r ledger w)
    (hparts : Throughout (fun before a => ∀ part d, Relation.TransGen Part a.2 part →
      Descriptor.parse part = .ok d → d.name ∈ (w.registry r).names ++ before.map Prod.fst) as)
    (heach : (Act.each (fun a : String × String => addAlias r (.text a.1) (.text a.2)) as).Returns w
      us w') :
    Acyclic r (as.reverse ++ aliases) w' := by
  induction as generalizing w ledger aliases us with
  | nil =>
    obtain ⟨-, rfl⟩ := Act.returns_pure_iff.1 heach
    exact h
  | cons a as ih =>
    obtain ⟨hfirst, hrest⟩ := throughout_cons.1 hparts
    obtain ⟨_, w₁, hadd, hothers⟩ := Act.returns_bind_iff.1 heach
    obtain ⟨us', w₂, hlater, hpure⟩ := Act.returns_bind_iff.1 hothers
    obtain ⟨-, rfl⟩ := Act.returns_pure_iff.1 hpure
    have hnew : Acyclic r (a :: aliases) w₁ := by
      refine .synonym h (fun part d hpart hd => contains_iff_mem_names.2 ?_) rfl
        (returns_alias_iff.2 hadd)
      simpa using hfirst part d hpart hd
    have hw₁ : Lineage r (ledger ++ [Setup.link a]) w₁ := (records_addAlias a).returns hw hadd
    have hnames := hw.names_append [a] hw₁
    simpa using ih hnew hw₁ (by simpa [hnames] using hrest) hlater

end Registry.Acyclic

namespace Environment

variable {s : Setup} {env : Environment} {w w' : World}

/-- **A grounded setup that builds** an environment with the library leaves no circular names. -/
lemma acyclic_of_grounded (hextended : s.extendedTypes = true) (h : s.Grounded)
    (hbuild : (withFacade s).Returns w env w') : Acyclic env.registry s.aliases.reverse w' := by
  obtain ⟨r, w₁, hg⟩ := exists_grounds s w
  obtain ⟨w₀, hbase, hinstall⟩ := hg.installed hextended
  have hacyclic : Acyclic r [] w₁ := .library hbase hinstall
  have hfurnish : (furnish s r).Returns w₁ env w' :=
    ⟨hg.outcome.symm.trans hbuild.1, hg.world.symm.trans hbuild.2⟩
  obtain ⟨us, w₂, heach, -⟩ := Act.returns_bind_iff.1 hfurnish
  have hfurnish' := returns_furnish hg.lineage hg.base heach
  obtain rfl := Except.ok.inj (hfurnish'.1.symm.trans hfurnish.1)
  obtain rfl : w₂ = w' := hfurnish'.2.symm.trans hfurnish.2
  rw [Setup.Grounded, Setup.namesAfter_eq hg.lineage] at h
  simpa using hacyclic.each_addAlias hg.lineage h heach

end Environment

/-! ### The shipped setup -/

namespace Setup

/-- Its aliases can be registered. -/
lemma admissible_shipped : shipped.Admissible := by
  refine throughout_cons.2 ⟨?_, throughout_cons.2 ⟨?_, throughout_nil⟩⟩
  · exact ⟨⟨⟨"tuple", .arguments ["number", "number"], false⟩, rfl, by decide⟩, by decide,
      by decide⟩
  · exact ⟨⟨⟨"tuple", .arguments ["R2Point", "R2Point"], false⟩, rfl, by decide⟩, by decide,
      by decide⟩

/-- They speak of what is known before them. -/
lemma grounded_shipped : shipped.Grounded := by
  refine throughout_cons.2 ⟨fun part d hpart hd => ?_,
    throughout_cons.2 ⟨fun part d hpart hd => ?_, throughout_nil⟩⟩
  · obtain rfl := Registry.eq_of_transGen_part "number" rfl rfl hpart
    obtain rfl : .ofName "number" = d := Except.ok.inj hd
    decide
  · obtain rfl := Registry.eq_of_transGen_part "R2Point" rfl rfl hpart
    obtain rfl : .ofName "R2Point" = d := Except.ok.inj hd
    decide

end Setup

end CallContracts
