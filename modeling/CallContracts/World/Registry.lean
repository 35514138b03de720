import CallContracts.Value.Callable

/-!
Registries: named types in the order of their registration.

A name has at most one entry, and entries are only ever added at the end. Main definitions:
`Registry`, `Registry.find?`, `Registry.typeChain`, `Registry.insert?`. Main statements:
`find?_insert?`, an added entry is found under its name and all others stay, and
`entries_insert?`, it is the last one.
-/

namespace CallContracts

/-- Named types, no two under one name. -/
structure Registry where
  entries : List Entry
  nodup : (entries.map Entry.name).Nodup

namespace Registry

/-- The registry without types. -/
def empty : Registry := ⟨[], by simp⟩

instance : Inhabited Registry := ⟨empty⟩

/-- The entry under a name. -/
def find? (r : Registry) (name : String) : Option Entry :=
  r.entries.find? fun e => e.name == name

/-- Whether a name is registered. -/
def contains (r : Registry) (name : String) : Bool := (r.find? name).isSome

/-- The names in order. -/
def names (r : Registry) : List String := r.entries.map Entry.name

/-- The answer for the ancestry of a name that nobody registered. -/
def undefinedType : String := "undefined type"

/-- The ancestry of a type, from the most general one on. -/
def typeChain (r : Registry) (name : String) : String :=
  match r.find? name with
  | some e => e.chain
  | none => undefinedType

theorem find?_eq_none_iff {r : Registry} {name : String} :
    r.find? name = none ↔ name ∉ r.names := by
  simp [find?, names]

/-- The registry with one more entry, unless its name is taken. -/
def insert? (r : Registry) (e : Entry) : Option Registry :=
  if h : r.find? e.name = none then
    some ⟨r.entries ++ [e], by
      have hn := find?_eq_none_iff.1 h
      have hr := r.nodup
      simp only [List.map_append, List.map_cons, List.map_nil]
      refine List.nodup_append.2 ⟨hr, by simp, ?_⟩
      intro a ha b hb
      simp only [List.mem_singleton] at hb
      subst hb
      exact fun hab => hn (hab ▸ ha)⟩
  else none

theorem entries_insert? {r s : Registry} {e : Entry} (h : r.insert? e = some s) :
    s.entries = r.entries ++ [e] := by
  unfold insert? at h
  split at h
  · cases h
    rfl
  · simp at h

theorem insert?_isSome {r : Registry} {e : Entry} :
    (r.insert? e).isSome = !r.contains e.name := by
  unfold insert? contains
  by_cases hf : r.find? e.name = none
  · simp [hf]
  · simp [hf, Option.isSome_iff_ne_none.2 hf]

theorem find?_insert? {r s : Registry} {e : Entry} (h : r.insert? e = some s) (name : String) :
    s.find? name = if name = e.name then some e else r.find? name := by
  have hnone : r.find? e.name = none := by
    unfold insert? at h
    split at h
    · next hn => exact hn
    · simp at h
  unfold find? at *
  rw [entries_insert? h, List.find?_append]
  by_cases hname : name = e.name
  · subst hname
    simp [hnone]
  · have : (e.name == name) = false := by simp [Ne.symm hname]
    simp [hname, this]

end Registry

end CallContracts
