import CallContracts.Proofs.World.Moves
import CallContracts.Proofs.World.Outcomes
import CallContracts.Registry.Library

/-!
The base types of a registry.

* `Registry.base`: the registry of the base types alone, and `Registry.HasBase`: a registry that
  holds them among others;
* `Registry.register_fresh`: a fresh name is registered at the end;
* `Registry.registry_create`: a new registry with the base types is `Registry.base`.
-/

namespace CallContracts.Registry

/-! ### The base types -/

/-- The entry of a base type. -/
def baseEntry (t : String × NativePredicate × String) : Entry :=
  ⟨t.1, predicate t.2.1, t.2.2, (predicate t.2.1).predicateArity⟩

/-- The registry of the base types alone. -/
def base : Registry := ⟨baseTypes.map baseEntry, by decide⟩

/-- A registry that holds the base types. -/
def HasBase (reg : Registry) : Prop := ∀ t ∈ baseTypes, reg.find? t.1 = some (baseEntry t)

/-- A world with one registry, that of the base types. -/
def world : World := ⟨[base], [], [], 0, .standard⟩

lemma hasBase_base : HasBase base := by
  rw [HasBase, baseTypes]
  simp only [List.forall_mem_cons, List.not_mem_nil, false_imp_iff, implies_true, and_true]
  exact ⟨rfl, rfl, rfl, rfl, rfl, rfl, rfl, rfl, rfl, rfl, rfl⟩

/-- The base types stay. -/
lemma HasBase.extends {w w' : World} {r : RegistryId} (h : HasBase (w.registry r))
    (hw : w.Extends w') : HasBase (w'.registry r) :=
  fun t ht => hw.find? (h t ht)

/-! ### Entries -/

lemma find?_name {reg : Registry} {name : String} {e : Entry} (h : reg.find? name = some e) :
    e.name = name := by
  simpa using List.find?_some h

lemma contains_of_find? {reg : Registry} {name : String} {e : Entry}
    (h : reg.find? name = some e) : reg.contains name = true := by
  rw [contains, h]
  rfl

/-- The base types are known. -/
lemma HasBase.contains {reg : Registry} {t : String × NativePredicate × String} (h : HasBase reg)
    (ht : t ∈ baseTypes) : reg.contains t.1 = true :=
  contains_of_find? (h t ht)

lemma lt_length_of_contains {w : World} {r : RegistryId} {name : String}
    (h : (w.registry r).contains name = true) :
    r < w.registries.length := by
  by_contra hr
  have hnone : w.registries[r]? = none := List.getElem?_eq_none (Nat.le_of_not_lt hr)
  simp [World.registry, hnone, contains, find?, Registry.empty] at h

/-- A registry that holds the base types is there. -/
lemma HasBase.lt_length {w : World} {r : RegistryId} (h : HasBase (w.registry r)) :
    r < w.registries.length :=
  lt_length_of_contains (h.contains (t := ("*", .anything, "*")) (by decide))

/-! ### A new registry -/

/-- A fresh name that is not blank is registered at the end. -/
lemma register_fresh {w : World} {r : RegistryId} {reg : Registry} {name chain : String}
    {v : Value} (hname : Text.isBlankText name = false) (hv : v.isCallable = true)
    (hreg : (w.registry r).insert? ⟨name, v, chain, v.predicateArity⟩ = some reg) :
    register r chain (.text name) v w =
      ⟨.ok (), w.setRegistry r reg, [.record (.registered name chain)]⟩ := by
  simp [register, Value.text?, hname, hv, hreg, Bind.bind, Act.bind, Act.world, Act.setWorld,
    Act.log, Act.emit]

lemma length_setRegistry (w : World) (r : RegistryId) (reg : Registry) :
    (w.setRegistry r reg).registries.length = w.registries.length := by
  simp [World.setRegistry]

/-- Fresh names are registered at the end, one after the other. -/
lemma each_register (ts : List (String × NativePredicate × String)) {w : World} {r : RegistryId}
    (hr : r < w.registries.length) (hblank : ∀ t ∈ ts, Text.isBlankText t.1 = false)
    (hnodup : (((w.registry r).entries ++ ts.map baseEntry).map Entry.name).Nodup) :
    ∃ us w' es,
      Act.each (fun (name, p, chain) => register r chain (.text name) (predicate p)) ts w =
        ⟨.ok us, w', es⟩ ∧
      (w'.registry r).entries = (w.registry r).entries ++ ts.map baseEntry := by
  induction ts generalizing w with
  | nil => exact ⟨[], w, [], rfl, by simp⟩
  | cons t ts ih =>
    have hfresh : (w.registry r).find? t.1 = none := by
      rw [Registry.find?_eq_none_iff]
      intro hmem
      rw [List.map_append, List.nodup_append] at hnodup
      exact hnodup.2.2 _ hmem _ (by simp [baseEntry]) rfl
    obtain ⟨reg, hreg⟩ : ∃ reg, (w.registry r).insert? (baseEntry t) = some reg := by
      refine Option.isSome_iff_exists.1 ?_
      rw [Registry.insert?_isSome]
      simp [Registry.contains, baseEntry, hfresh]
    have hfirst := register_fresh (hblank t (by simp)) rfl hreg
    have hreg' : ((w.setRegistry r reg).registry r).entries =
        (w.registry r).entries ++ [baseEntry t] := by
      rw [World.registry_setRegistry, if_pos ⟨rfl, hr⟩, Registry.entries_insert? hreg]
    have hr' : r < (w.setRegistry r reg).registries.length := by rwa [length_setRegistry]
    obtain ⟨us, w', es, hrest, hentries⟩ := ih hr'
      (fun t ht => hblank t (by simp [ht])) (by rw [hreg']; simpa using hnodup)
    refine ⟨() :: us, w', .record (.registered t.1 t.2.2) :: es, ?_, ?_⟩
    · rw [Act.each, Act.bind_of_ok hfirst, Act.bind_of_ok hrest]
      simp [pure, Act.pure]
    · rw [hentries, hreg']
      simp

/-- A new registry with the base types is the registry of the base types. -/
lemma registry_create (w : World) :
    ∃ w' es, create true w = ⟨.ok w.registries.length, w', es⟩ ∧
      w'.registry w.registries.length = base := by
  let w₁ : World := { w with registries := w.registries ++ [.empty] }
  have hempty : w₁.registry w.registries.length = .empty := by simp [w₁, World.registry]
  obtain ⟨us, w', es, heach, hentries⟩ := each_register baseTypes (w := w₁)
    (r := w.registries.length) (by simp [w₁]) (by decide) (by rw [hempty]; decide)
  refine ⟨w', es, ?_, ?_⟩
  · have hworld : Act.world w = ⟨.ok w, w, []⟩ := rfl
    have hset : Act.setWorld w₁ w = ⟨.ok (), w₁, []⟩ := rfl
    rw [create, Act.bind_of_pure hworld]
    simp only [if_true]
    rw [Act.bind_of_ok hset, Act.bind_of_ok heach]
    simp [pure, Act.pure]
  · rw [hempty] at hentries
    rcases hreg : w'.registry w.registries.length with ⟨entries, hnodup⟩
    rw [hreg] at hentries
    simp only [Registry.empty, List.nil_append] at hentries
    subst hentries
    rfl

end CallContracts.Registry
