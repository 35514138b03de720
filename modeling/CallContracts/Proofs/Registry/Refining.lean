import CallContracts.Proofs.Enforcement.Levels
import CallContracts.Proofs.Registry.History
import CallContracts.Proofs.Registry.Membership
import CallContracts.Proofs.Signature.Canonical

/-!
Registering a refinement of a type.

* `Registry.refinementTree`: the contract of the predicate of a refinement, which reads if the name
  of the parent stands for itself in a stage and is registered, and only then;
  `Registry.contractOn`, such a contract in general;
* `Registry.Refined`: a type was registered as a refinement, at some time before;
* `Registry.refined_setRegistry` and `Registry.Refined.exists_entry`: **what it takes to register a
  refinement, and what it leaves behind**: the parent and, under the name, the predicate enforced
  against the parent.
-/

namespace CallContracts

open Signature Text

namespace Registry

/-! ### The contract of a refinement -/

/-- What the predicate of a refinement may be given besides a value: a descriptor and the
membership test. -/
def refinementRest : Stage := [⟨"object", .plain, true⟩, ⟨"function", .plain, true⟩]

/-- The contract of a predicate about the values of a type, read. -/
def contractOn (d : Descriptor) : Tree := ⟨[d :: refinementRest, [.ofName "boolean"]]⟩

/-- The contract of the predicate of a refinement, read. -/
def refinementTree (parent : String) : Tree :=
  ⟨[.ofName parent :: refinementRest, [.ofName "boolean"]]⟩

lemma text_refinementTree (parent : String) :
    (refinementTree parent).text = refinementContract parent := by
  rw [← String.toList_inj]
  simp [refinementTree, refinementRest, refinementContract, Tree.text, Stage.text, Descriptor.text,
    Descriptor.typeText, Descriptor.ofName, unitName]

/-- A contract of a refinement has the form of a signature if the name of the parent stands for
itself in a stage. -/
lemma parseForm_refinementContract {parent : String} (hparent : (Descriptor.ofName parent).Readable)
    (hunit : parent ≠ unitName) :
    Tree.parseForm (refinementContract parent) = .ok (refinementTree parent) := by
  have hbase : ∀ d : Descriptor, d.detail = .plain → d.name ≠ unitName →
      (∃ t ∈ baseTypes, d.name = t.1) → d.Readable := fun d hdetail hname ht =>
    (canonical_of_base hdetail hname ht).readable
  have hwellFormed : (refinementTree parent).WellFormed :=
    ⟨by simp [refinementTree, Tree.size], by simp [refinementTree], ⟨_, rfl⟩⟩
  have hreadable : ∀ s ∈ (refinementTree parent).stages, ∀ d ∈ s, d.Readable := by
    simp only [refinementTree, refinementRest, List.forall_mem_cons, List.not_mem_nil,
      false_imp_iff, implies_true, and_true]
    exact ⟨⟨hparent, hbase _ rfl (by decide) (by decide), hbase _ rfl (by decide) (by decide)⟩,
      hbase _ rfl (by decide) (by decide)⟩
  have hcrowded : ¬ (refinementTree parent).IsCrowded := by
    have hothers : unitName ≠ "object" ∧ unitName ≠ "function" := by decide
    simp [Tree.IsCrowded, Stage.IsCrowded, refinementTree, refinementRest, Descriptor.unit,
      Descriptor.ofName, hunit.symm, hothers]
  have hform := parseForm_of_spells hwellFormed hreadable (refinementTree parent).spells_text
  rwa [if_neg hcrowded, String.ofList_toList, text_refinementTree] at hform

/-- A contract of a refinement that reads names its parent. -/
lemma eq_refinementTree {known : String → Bool} {parent : String} {t : Tree}
    (hparent : Descriptor.PlainName parent)
    (h : Tree.parse (some known) (refinementContract parent) = .ok t) :
    parent ≠ "" ∧ t = refinementTree parent ∧ known parent = true := by
  obtain ⟨hform, hcheck⟩ := Tree.parse_eq_ok_iff.1 h
  have hne : parent ≠ "" := by
    rintro rfl
    have hempty : Tree.parseForm (refinementContract "") =
        .error ⟨.emptyEntry, some (refinementContract "")⟩ := by rfl
    rw [hempty] at hform
    simp at hform
  have hwritten :=
    parseForm_refinementContract (hparent.canonical hne).readable hparent.ne_unit
  obtain rfl : refinementTree parent = t := Except.ok.inj (hwritten.symm.trans hform)
  refine ⟨hne, rfl, ?_⟩
  obtain ⟨-, hall⟩ := Tree.checkNames_eq_ok_iff.1 (hcheck known rfl)
  exact hall (.ofName parent) (by simp [refinementTree])

/-- A contract of a refinement reads if its parent is registered. -/
lemma parse_refinementContract {reg : Registry} (hparent : (Descriptor.ofName parent).Readable)
    (hunit : parent ≠ unitName) (hbase : HasBase reg) (hcontains : reg.contains parent = true) :
    Tree.parse (some reg.contains) (refinementContract parent) = .ok (refinementTree parent) := by
  refine Tree.parse_eq_ok_iff.2 ⟨parseForm_refinementContract hparent hunit, ?_⟩
  rintro known hknown
  obtain rfl := Option.some.inj hknown
  have hobject := hbase.contains (t := ("object", .isObject, "* -> object")) (by decide)
  have hfunction := hbase.contains (t := ("function", .isFunction, "* -> function")) (by decide)
  have hboolean := hbase.contains (t := ("boolean", .isBoolean, "* -> boolean")) (by decide)
  rw [Tree.checkNames_eq_ok_iff]
  simp [refinementTree, refinementRest, Descriptor.ofName, Descriptor.label?, hcontains, hobject,
    hfunction, hboolean]

/-! ### Refined types -/

/-- A type was registered as a refinement of another, at some time before: `subtype` gave a binder
for the parent, and a call of the binder with the name and the predicate returned. -/
def Refined (r : RegistryId) (parent name : String) (predicate : Value) (w : World) : Prop :=
  ∃ (n m : Nat) (binder u : Value) (w₀ w₁ w₂ w₃ : World),
    (invoke n (.function (.operation r .subtype)) [.text parent] []).Returns w₀ binder w₁ ∧
      w₁.History w₂ ∧ (invoke m binder [.text name, predicate] []).Returns w₂ u w₃ ∧
        w₃.History w

/-- A predicate about the values of a type, enforced. -/
def enforcedOn (r : RegistryId) (d : Descriptor) (raw : String) (f : Function) : Value :=
  .function (.signed (.enforced (.plain f (contractOn d) raw .null true) r))

/-- The predicate of a refinement, enforced against the parent. -/
def refinementPredicate (r : RegistryId) (parent : String) (f : Function) : Value :=
  .function (.signed (.enforced
    (.plain f (refinementTree parent) (refinementContract parent) .null true) r))

section refined

variable {r : RegistryId} {w w' : World} {parent name : String} {predicate : Value}

/-- A binder registers what its registry does. -/
lemma returns_binder_iff {v : Value} {n : ℕ} :
    (invoke (n + 1) (.function (.binder r parent)) [.text name, v] []).Returns w .null w' ↔
      (Registry.bind r parent (.text name) v).Returns w () w' := by
  have hvalues : Call.values ((Function.binder r parent).parameters?.getD []) [.text name, v] [] w =
      ⟨.ok [.text name, v], w, []⟩ := rfl
  rw [invoke_succ, Value.apply, Function.apply, Act.returns_bind_of_pure hvalues]
  exact Act.returns_bind_pure_iff

section fresh

variable {f : Function} {reg : Registry}

/-- A predicate that can take the contract is registered under a fresh name. -/
lemma returns_bind_fresh (hparent : (Descriptor.ofName parent).Readable)
    (hunit : parent ≠ unitName) (hbase : HasBase (w.registry r))
    (hcontains : (w.registry r).contains parent = true)
    (hfits : Enforcer.Fits
      (.plain f (refinementTree parent) (refinementContract parent) .null true))
    (hname : Text.isBlankText name = false)
    (hreg : (w.registry r).insert? (newEntry ((w.registry r).typeChain parent) name
      (refinementPredicate r parent f)) = some reg) :
    (Registry.bind r parent (.text name) (.function f)).Returns w () (w.setRegistry r reg) := by
  have henforce := Enforcer.enforce_of_fits
    (parse_refinementContract hparent hunit hbase hcontains) hfits
  have hregistry : Act.registry r w = ⟨.ok (w.registry r), w, []⟩ := rfl
  have hregister : (registerBelow r ((w.registry r).typeChain parent) (.text name)
      (refinementPredicate r parent f)).Returns w () (w.setRegistry r reg) :=
    Act.returns_of_eq (register_fresh hname rfl hreg)
  refine Act.returns_bind_iff.2 ⟨_, w, Act.returns_of_eq henforce, ?_⟩
  rw [Act.returns_bind_of_pure hregistry]
  exact hregister

lemma refined_setRegistry (hparent : Descriptor.PlainName parent) (hne : parent ≠ "")
    (hbase : HasBase (w.registry r)) (hcontains : (w.registry r).contains parent = true)
    (hfits : Enforcer.Fits
      (.plain f (refinementTree parent) (refinementContract parent) .null true))
    (hname : Text.isBlankText name = false)
    (hreg : (w.registry r).insert? (newEntry ((w.registry r).typeChain parent) name
      (refinementPredicate r parent f)) = some reg) :
    Refined r parent name (.function f) (w.setRegistry r reg) :=
  ⟨1, 1, _, .null, w, w, w, _, returns_subtype_iff.2 ⟨hcontains, rfl, rfl⟩, .refl,
    returns_binder_iff.2 (returns_bind_fresh (hparent.canonical hne).readable hparent.ne_unit hbase
      hcontains hfits hname hreg), .refl⟩

end fresh

/-- A signed predicate without a context has the parameters of its callable. -/
lemma parameters?_plain (f : Function) (t : Tree) (raw : String) (b : Bool) :
    (Value.function (.signed (.plain f t raw .null b))).parameters? =
      (Value.function f).parameters? := by
  simp [Value.parameters?, Function.parameters?, Signed.parameters?, Signed.receives, Value.isNull]

/-- Enforcement does not change what a predicate is given. -/
lemma predicateArity_enforced {t : Tree} {raw : String} {f : Function} :
    (Value.function (.signed (.enforced (.plain f t raw .null true) r))).predicateArity =
      (Value.function f).predicateArity := by
  have hparameters : (Value.function (.signed (.enforced (.plain f t raw .null true)
      r))).parameters? = (Value.function f).parameters? := parameters?_plain f t raw true
  rw [Value.predicateArity, hparameters, ← Value.predicateArity]

/-- A predicate that can take the contract is given at least one argument. -/
lemma one_le_arity_of_fits {f : Function} {raw : String}
    (h : Enforcer.Fits (.plain f (refinementTree parent) raw .null true)) :
    1 ≤ (Value.function f).predicateArity := by
  have hdeclared : 1 ≤ (Value.function f).parameterCount := by
    rw [Enforcer.Fits, Signature.checkCount, Value.parameterCount, parameters?_plain,
      ← Value.parameterCount] at h
    by_contra hnone
    have hrequired : (Stage.required ((refinementTree parent).parameters?.getD [])) = 1 := rfl
    have hzero : (Value.function f).parameterCount = 0 := by omega
    simp [Signed.tree, hzero, hrequired] at h
  rw [Value.parameterCount] at hdeclared
  rw [Value.predicateArity]
  split
  · next ps hps =>
    rw [hps] at hdeclared
    simp only [Parameter.predicateArity, Parameter.greatestArity]
    split
    · omega
    · exact Nat.le_min.2 ⟨hdeclared, by omega⟩
  · exact Nat.le_refl 1

/-- **What a refinement leaves behind**: its parent is registered, and its entry has the predicate,
enforced against the parent. -/
lemma Refined.exists_entry (hparent : Descriptor.PlainName parent)
    (h : Refined r parent name predicate w) :
    ∃ f chain, predicate = .function f ∧ 1 ≤ (Value.function f).predicateArity ∧
      parent ≠ "" ∧ (w.registry r).contains parent = true ∧
      (w.registry r).find? name = some (newEntry chain name (refinementPredicate r parent f)) := by
  obtain ⟨n, m, binder, u, w₀, w₁, w₂, w₃, hsubtype, -, hbind, hlater⟩ := h
  rcases n with _ | n
  · exact absurd hsubtype Act.not_returns_exhausted
  obtain ⟨-, rfl, -⟩ := returns_subtype_iff.1 hsubtype
  have hkeeps : w₂.Extends w :=
    (hbind.2 ▸ invoke_extends m _ _ _ w₂ : w₂.Extends w₃).trans hlater.extends
  obtain ⟨e, reg, hadds, hreg, rfl⟩ := (Registers.refinement parent).exists_adds rfl hbind
  cases hadds with
  | refinement _ _ hs =>
    obtain ⟨text, f, t, htext, rfl, hparse, rfl, hfits⟩ := Enforcer.exists_of_enforce hs
    obtain rfl : refinementContract parent = text := by simpa using htext
    obtain ⟨hne, rfl, hknown⟩ := eq_refinementTree hparent hparse
    refine ⟨f, (w₂.registry r).typeChain parent, rfl, one_le_arity_of_fits hfits, hne,
      hkeeps.contains hknown, hlater.extends.find? ?_⟩
    rw [World.registry_setRegistry, if_pos ⟨rfl, lt_length_of_contains hknown⟩,
      find?_insert? hreg]
    exact if_pos rfl

end refined

end Registry

end CallContracts
