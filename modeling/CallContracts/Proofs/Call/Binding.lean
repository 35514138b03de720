import Mathlib.Tactic
import CallContracts.Call.Binding

/-!
Calls that bind, and how many positions they can fill.

* `Call.bind_eq_some_iff`: a call binds if no parameter without a default stays open;
* `Call.length_le_of_bind`: a call that binds gives no more positions than there are parameters for
  them, unless a parameter collects the others;
* `Call.length_layout_le`: neither does its layout.
-/

namespace CallContracts.Call

variable {δ α : Type} {ps : List (Parameter δ)} {args : List α} {kw left : Keywords α}
  {slots : List (Slot α)}

/-- What a slot in front of a filling tells about the rest. -/
lemma exists_of_consSlot {s : Slot α} {r : Option (List (Slot α) × Keywords α)}
    (h : consSlot s r = some (slots, left)) :
    ∃ rest, r = some (rest, left) ∧ slots = s :: rest := by
  obtain ⟨⟨rest, l⟩, hr, he⟩ := Option.map_eq_some_iff.1 h
  simp only [Prod.mk.injEq] at he
  obtain ⟨rfl, rfl⟩ := he
  exact ⟨rest, hr, rfl⟩

/-- A call binds if it gives something to each parameter without a default. -/
lemma bind_eq_some_iff :
    bind ps args kw = some slots ↔ slots? ps args kw = some slots ∧
      ∀ q ∈ ps.zip slots, q.2.isOmitted = false ∨ q.1.default?.isSome = true := by
  rw [bind]
  rcases hslots : slots? ps args kw with _ | filled
  · simp
  · simp only [Option.ite_none_right_eq_some, Option.some.injEq, List.all_eq_true, Bool.or_eq_true,
      Bool.not_eq_true']
    refine ⟨?_, ?_⟩
    · rintro ⟨hall, rfl⟩
      exact ⟨rfl, hall⟩
    · rintro ⟨rfl, hall⟩
      exact ⟨hall, rfl⟩

lemma length_le_of_fill (hps : ∀ p ∈ ps, p.isVariadic = false)
    (h : fill ps args kw = some (slots, left)) : args.length ≤ Parameter.declaredCount ps := by
  rw [Parameter.declaredCount]
  induction ps generalizing args kw slots with
  | nil =>
    cases args with
    | nil => simp
    | cons a args => simp [fill] at h
  | cons p ps ih =>
    have htail : ∀ q ∈ ps, q.isVariadic = false := fun q hq => hps q (by simp [hq])
    rcases args with _ | ⟨a, args⟩
    · simp
    · -- only a parameter that a position can fill takes the next position
      have hnext : p.isPositional = true →
          (∃ rest, fill ps args kw = some (rest, left)) →
            (a :: args).length ≤ (p :: ps).countP Parameter.isPositional := by
        rintro hp ⟨rest, hrest⟩
        have := ih htail hrest
        rw [List.countP_cons_of_pos hp, List.length_cons]
        omega
      rcases hkind : p.kind
      · simp only [fill, hkind] at h
        obtain ⟨rest, hrest, -⟩ := exists_of_consSlot h
        exact hnext (by simp [Parameter.isPositional, hkind]) ⟨rest, hrest⟩
      · simp only [fill, hkind] at h
        split at h
        · simp at h
        · obtain ⟨rest, hrest, -⟩ := exists_of_consSlot h
          exact hnext (by simp [Parameter.isPositional, hkind]) ⟨rest, hrest⟩
      · have := hps p (by simp)
        simp [Parameter.isVariadic, hkind] at this
      · simp [fill, hkind] at h
      · simp [fill, hkind] at h

/-- Only a variadic parameter gets several values. -/
lemma isVariadic_of_fill (h : fill ps args kw = some (slots, left)) :
    ∀ q ∈ ps.zip slots, ∀ vs, q.2 = .rest vs → q.1.isVariadic = true := by
  induction ps generalizing args kw slots with
  | nil => simp
  | cons p ps ih =>
    have hcons : ∀ {s : Slot α} {args : List α} {kw : Keywords α},
        consSlot s (fill ps args kw) = some (slots, left) →
          (∀ vs, s = .rest vs → p.isVariadic = true) →
            ∀ q ∈ (p :: ps).zip slots, ∀ vs, q.2 = .rest vs → q.1.isVariadic = true := by
      intro s args kw hs hp
      obtain ⟨rest, hrest, rfl⟩ := exists_of_consSlot hs
      intro q hq
      rw [List.zip_cons_cons, List.mem_cons] at hq
      rcases hq with rfl | hq
      · exact hp
      · exact ih hrest q hq
    simp only [fill] at h
    split at h
    · exact hcons h (by simp)
    · exact hcons h (by simp)
    · split at h
      · simp at h
      · exact hcons h (by simp)
    · split at h
      · exact hcons h (by simp)
      · exact hcons h (by simp)
    · next hkind => exact hcons h fun _ _ => by simp [Parameter.isVariadic, hkind]
    · split at h
      · exact hcons h (by simp)
      · exact hcons h (by simp)
    · exact hcons h (by simp)
    · simp at h
    · simp at h

lemma exists_fill_of_slots? (h : slots? ps args kw = some slots) :
    ∃ filled left, fill ps args kw = some (filled, left) ∧
      (slots = filled ∨ slots = collect left filled) := by
  rw [slots?] at h
  split at h
  · simp at h
  · next filled left hfill =>
    refine ⟨filled, left, hfill, ?_⟩
    split at h
    · exact Or.inl (Option.some.inj h).symm
    · split at h
      · exact Or.inr (Option.some.inj h).symm
      · simp at h

lemma isVariadic_of_slots? (h : slots? ps args kw = some slots) :
    ∀ q ∈ ps.zip slots, ∀ vs, q.2 = .rest vs → q.1.isVariadic = true := by
  obtain ⟨filled, left, hfill, rfl | rfl⟩ := exists_fill_of_slots? h
  · exact isVariadic_of_fill hfill
  · intro q hq vs hvs
    rw [collect] at hq
    rw [List.zip_map_right] at hq
    obtain ⟨⟨p, s⟩, hps, rfl⟩ := List.mem_map.1 hq
    refine isVariadic_of_fill hfill (p, s) hps vs ?_
    cases s <;> simp_all

lemma length_layoutFrom_le (filler : α) (pending : Nat)
    (h : ∀ q ∈ ps.zip slots, ∀ vs, q.2 ≠ .rest vs) :
    (layoutFrom filler pending ps slots).length ≤ pending + ps.countP Parameter.isPositional := by
  induction ps generalizing pending slots with
  | nil => simp [layoutFrom]
  | cons p ps ih =>
    rcases slots with _ | ⟨s, slots⟩
    · simp [layoutFrom]
    · have hs : ∀ vs, s ≠ .rest vs := h (p, s) (by simp)
      have htail : ∀ q ∈ ps.zip slots, ∀ vs, q.2 ≠ .rest vs := fun q hq => h q (by simp [hq])
      unfold layoutFrom
      by_cases hp : p.isPositional = true
      · rw [if_pos hp, List.countP_cons_of_pos hp]
        split
        · have := ih 0 htail
          simp only [List.length_append, List.length_replicate, List.length_cons]
          omega
        · have := ih (pending + 1) htail
          omega
      · rw [if_neg hp]
        split
        · next vs => exact absurd rfl (hs vs)
        · simp

/-- A call that binds gives no more positions than there are parameters for them, unless a
parameter collects the others. -/
lemma length_le_of_bind (hps : ∀ p ∈ ps, p.isVariadic = false)
    (h : (bind ps args kw).isSome = true) : args.length ≤ Parameter.declaredCount ps := by
  obtain ⟨slots, hslots⟩ := Option.isSome_iff_exists.1 h
  obtain ⟨filled, left, hfill, -⟩ := exists_fill_of_slots? (bind_eq_some_iff.1 hslots).1
  exact length_le_of_fill hps hfill

/-- The layout of a call that binds in part has no more values either. -/
lemma length_layout_le (hps : ∀ p ∈ ps, p.isVariadic = false) (filler : α)
    (h : bindPartial ps args kw = some slots) :
    (layout filler ps slots).length ≤ Parameter.declaredCount ps := by
  have hslots : slots? ps args kw = some slots := by
    rw [bindPartial] at h
    rcases hs : slots? ps args kw with _ | slots'
    · simp [hs] at h
    · simp only [hs] at h
      split at h
      · simp at h
      · exact h
  have hrest : ∀ q ∈ ps.zip slots, ∀ vs, q.2 ≠ .rest vs := by
    intro q hq vs hvs
    have := isVariadic_of_slots? hslots q hq vs hvs
    rw [hps q.1 (List.of_mem_zip hq).1] at this
    simp at this
  simpa [layout, Parameter.declaredCount] using length_layoutFrom_le filler 0 hrest

end CallContracts.Call
