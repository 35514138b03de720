import CallContracts.Proofs.Call.Alignment
import CallContracts.Proofs.Call.Values

/-!
Calls by position alone.

* `Parameter.requiredCount`: the number of parameters that a position has to fill, and
  `Parameter.DefaultsLast`: behind a default all of them have one;
* `Call.isSome_bind_iff`: **a call by position binds** if it gives enough positions and not too many
  and no parameter by keyword alone needs a value, by induction on the parameters;
* `Call.isSome_bind_take_iff`: if the positions are cut off to what a predicate with these
  parameters is given, they are never too many;
* `Call.exists_values`: a call that binds has a value for each parameter.
-/

namespace CallContracts

namespace Parameter

variable {δ : Type} {p : Parameter δ} {ps : List (Parameter δ)}

/-! ### Required parameters -/

/-- The number of parameters without a default that a position can fill. -/
def requiredCount (ps : List (Parameter δ)) : ℕ :=
  ps.countP fun p => p.isPositional && p.default?.isNone

/-- The defaults in the parameter lists of functions: behind a parameter with a default each one
that a position can fill has a default too. -/
def DefaultsLast (ps : List (Parameter δ)) : Prop :=
  ps.Pairwise fun p q =>
    p.default?.isSome = true → q.isPositional = true → q.default?.isSome = true

instance : Decidable (DefaultsLast ps) := inferInstanceAs (Decidable (List.Pairwise _ _))

lemma requiredCount_cons :
    requiredCount (p :: ps) =
      requiredCount ps + if (p.isPositional && p.default?.isNone) = true then 1 else 0 :=
  List.countP_cons

lemma requiredCount_le : requiredCount ps ≤ declaredCount ps :=
  List.countP_mono_left fun _ _ h => (Bool.and_eq_true_iff.1 h).1

lemma DefaultsLast.tail (h : DefaultsLast (p :: ps)) : DefaultsLast ps :=
  (List.pairwise_cons.1 h).2

/-- Nothing is required behind a default. -/
lemma DefaultsLast.requiredCount_eq_zero (h : DefaultsLast (p :: ps))
    (hp : p.default?.isSome = true) : requiredCount ps = 0 := by
  rw [requiredCount, List.countP_eq_zero]
  intro q hq hrequired
  rw [Bool.and_eq_true_iff, Option.isNone_iff_eq_none] at hrequired
  have hdefault := (List.pairwise_cons.1 h).1 q hq hp hrequired.1
  simp [hrequired.2] at hdefault

end Parameter

namespace Call

open Parameter

variable {δ α : Type} {p : Parameter δ} {ps : List (Parameter δ)} {args args' : List α}
  {kw left : Keywords α} {slots : List (Slot α)} {s : Slot α} {a : α}

/-! ### Calls that bind -/

/-- Without keywords none is left over. -/
lemma eq_nil_of_fill (h : fill ps args [] = some (slots, left)) : left = [] := by
  induction ps generalizing args slots with
  | nil =>
    rcases args with _ | ⟨a, args⟩
    · simp only [fill, Option.some.injEq, Prod.mk.injEq] at h
      exact h.2.symm
    · simp [fill] at h
  | cons p ps ih =>
    have hcons : ∀ {s : Slot α} {args : List α},
        consSlot s (fill ps args []) = some (slots, left) → left = [] := by
      intro s args hs
      obtain ⟨rest, hrest, -⟩ := exists_of_consSlot hs
      exact ih hrest
    rcases hkind : p.kind <;> rcases args with _ | ⟨a, args⟩ <;>
      simp only [fill, hkind, List.lookup_nil, reduceCtorEq] at h
    all_goals exact hcons h

/-- A call binds if the first parameter has its value or its default and the rest of the call
binds. -/
lemma isSome_bind_cons (h : fill (p :: ps) args [] = consSlot s (fill ps args' [])) :
    (bind (p :: ps) args []).isSome =
      ((!s.isOmitted || p.default?.isSome) && (bind ps args' []).isSome) := by
  rw [bind, bind, slots?, slots?, h]
  rcases hfill : fill ps args' [] with _ | ⟨slots, left⟩
  · simp [consSlot]
  · obtain rfl := eq_nil_of_fill hfill
    simp only [consSlot, Option.map_some, List.isEmpty_nil, if_true]
    rw [Bool.eq_iff_iff, Bool.and_eq_true, Option.isSome_ite, Option.isSome_ite, List.zip_cons_cons,
      List.all_cons, Bool.and_eq_true]

/-- A call without positions binds if no parameter requires a value. -/
lemma isSome_bind_nil_iff :
    (bind ps ([] : List α) []).isSome = true ↔
      requiredCount ps = 0 ∧ ∀ p ∈ ps, p.kind = .keywordOnly → p.default?.isSome = true := by
  induction ps with
  | nil => simp [bind, slots?, fill, requiredCount]
  | cons p ps ih =>
    have hstep : ∀ s : Slot α, fill (p :: ps) [] [] = consSlot s (fill ps [] []) →
        ((bind (p :: ps) ([] : List α) []).isSome = true ↔
          (s.isOmitted = false ∨ p.default?.isSome = true) ∧
            (bind ps ([] : List α) []).isSome = true) := by
      intro s hfill
      rw [isSome_bind_cons hfill, Bool.and_eq_true, Bool.or_eq_true, Bool.not_eq_true']
    rw [List.forall_mem_cons, requiredCount_cons]
    rcases hkind : p.kind
    case variadic =>
      rw [hstep (.rest []) (by simp [fill, hkind]), ih]
      simp [Slot.isOmitted, isPositional, hkind]
    case keywords =>
      rw [hstep (.named []) (by simp [fill, hkind]), ih]
      simp [Slot.isOmitted, isPositional, hkind]
    -- the others stay open
    all_goals
      rw [hstep .omitted (by simp [fill, hkind]), ih]
      rcases p.default? <;> simp [Slot.isOmitted, isPositional, hkind]

/-- The first parameter takes the first position. -/
lemma isSome_bind_positional (hp : p.isPositional = true) :
    (bind (p :: ps) (a :: args) []).isSome = (bind ps args []).isSome := by
  have hfill : fill (p :: ps) (a :: args) [] = consSlot (.given a) (fill ps args []) := by
    rcases hkind : p.kind
    · simp only [fill, hkind]
    · simp [fill, hkind, hasKeyword]
    all_goals simp [isPositional, hkind] at hp
  simp [isSome_bind_cons hfill, Slot.isOmitted]

/-- If no position fills the first parameter, it takes them all or there is no place for them. -/
lemma isSome_bind_not_positional (hp : p.isPositional = false) :
    (bind (p :: ps) (a :: args) []).isSome =
      (p.isVariadic && (bind ps ([] : List α) []).isSome) := by
  rcases hkind : p.kind
  · simp [isPositional, hkind] at hp
  · simp [isPositional, hkind] at hp
  · have hfill : fill (p :: ps) (a :: args) [] = consSlot (.rest (a :: args)) (fill ps [] []) := by
      simp only [fill, hkind]
    simp [isSome_bind_cons hfill, Slot.isOmitted, isVariadic, hkind]
  all_goals simp [bind, slots?, fill, isVariadic, hkind]

/-- **A call by position binds** if it gives a value to each parameter that requires one, if there
is a place for each value, and if no parameter by keyword alone requires one. -/
lemma isSome_bind_iff (hps : ps.Pairwise Before) (hdefaults : DefaultsLast ps) :
    (bind ps args []).isSome = true ↔
      requiredCount ps ≤ args.length ∧
      (args.length ≤ declaredCount ps ∨ ps.any isVariadic = true) ∧
      ∀ p ∈ ps, p.kind = .keywordOnly → p.default?.isSome = true := by
  induction ps generalizing args with
  | nil =>
    rcases args with _ | ⟨a, args⟩
    · simp [bind, slots?, fill, requiredCount]
    · simp [bind, slots?, fill, declaredCount]
  | cons p ps ih =>
    rcases args with _ | ⟨a, args⟩
    · simp [isSome_bind_nil_iff]
    rw [requiredCount_cons, List.any_cons, List.forall_mem_cons]
    by_cases hp : p.isPositional = true
    · have hkind : p.kind ≠ .keywordOnly := by
        intro hkind
        simp [isPositional, hkind] at hp
      have hcount : declaredCount (p :: ps) = declaredCount ps + 1 := List.countP_cons_of_pos hp
      rw [isSome_bind_positional hp, ih (List.pairwise_cons.1 hps).2 hdefaults.tail, hcount,
        not_isVariadic_of_isPositional hp]
      rcases hdefault : p.default? with _ | v
      · simp [hp, hkind]
      · have hzero := hdefaults.requiredCount_eq_zero (by simp [hdefault])
        simp [hkind, hzero]
    · -- a position has a place only if all further ones have
      rw [Bool.not_eq_true] at hp
      have hcount : declaredCount (p :: ps) = 0 := declaredCount_of_not_positional hps hp
      have hzero : requiredCount ps = 0 := by
        have hle : requiredCount (p :: ps) ≤ 0 := hcount ▸ requiredCount_le
        rw [requiredCount_cons] at hle
        omega
      have hany : ps.any isVariadic = false :=
        List.any_eq_false.2 fun q hq => by simp [not_isVariadic_of_before hps hp q hq]
      rw [isSome_bind_not_positional hp, Bool.and_eq_true, isSome_bind_nil_iff, hcount, hany, hzero]
      rcases hkind : p.kind <;> simp [isVariadic, hp, hkind]

/-- **What a predicate is given binds** to its parameters exactly if not more of them require a
value than there are values, and none by keyword alone does. -/
lemma isSome_bind_take_iff (hps : ps.Pairwise Before) (hdefaults : DefaultsLast ps)
    (hargs : args.length = greatestArity) :
    (bind ps (args.take (predicateArity ps)) []).isSome = true ↔
      requiredCount ps ≤ greatestArity ∧
      ∀ p ∈ ps, p.kind = .keywordOnly → p.default?.isSome = true := by
  have hlength : (args.take (predicateArity ps)).length = predicateArity ps := by
    rw [List.length_take, hargs]
    exact min_eq_left (predicateArity_le ps)
  have hplaces : predicateArity ps ≤ declaredCount ps ∨ ps.any isVariadic = true := by
    rw [predicateArity]
    split
    · next hvariadic => exact .inr hvariadic
    · exact .inl (min_le_left _ _)
  have hrequired : requiredCount ps ≤ predicateArity ps ↔ requiredCount ps ≤ greatestArity := by
    rw [predicateArity]
    split
    · rfl
    · rw [le_min_iff, and_iff_right requiredCount_le]
  rw [isSome_bind_iff hps hdefaults, hlength, hrequired, and_iff_right hplaces]

/-! ### Values -/

section values

variable {ps : List (Parameter Value)} {args : List Value} {kw : Keywords Value}
  {slots : List (Slot Value)}

/-- Parameters that are given something or have a default get their values in turn. -/
lemma exists_each_value {qs : List (Parameter Value × Slot Value)}
    (h : ∀ q ∈ qs, q.2.isOmitted = false ∨ q.1.default?.isSome = true) (w : World) :
    ∃ vs w', Act.each (fun q : Parameter Value × Slot Value => q.2.value q.1.default?) qs w =
      ⟨.ok vs, w', []⟩ := by
  induction qs generalizing w with
  | nil => exact ⟨[], w, rfl⟩
  | cons q qs ih =>
    obtain ⟨p, s⟩ := q
    rw [List.forall_mem_cons] at h
    obtain ⟨v, w₁, hfirst⟩ : ∃ v w₁, s.value p.default? w = ⟨.ok v, w₁, []⟩ := by
      cases s with
      | given v => exact ⟨v, w, rfl⟩
      | omitted =>
        obtain ⟨v, hv⟩ := Option.isSome_iff_exists.1 (h.1.resolve_left (by simp [Slot.isOmitted]))
        exact ⟨v, w, by rw [hv]; rfl⟩
      | rest vs => exact ⟨.tuple vs, w, rfl⟩
      | named kvs => exact ⟨_, _, rfl⟩
    obtain ⟨vs, w', hrest⟩ := ih h.2 w₁
    refine ⟨v :: vs, w', ?_⟩
    rw [Act.each, Act.bind_of_ok hfirst, Act.bind_of_ok hrest]
    rfl

/-- A call that binds has a value for each parameter. -/
lemma exists_values (h : bind ps args kw = some slots) (w : World) :
    ∃ vs w', values ps args kw w = ⟨.ok vs, w', []⟩ := by
  rw [values_eq_each h]
  exact exists_each_value (bind_eq_some_iff.1 h).2 w

end values

end Call

end CallContracts
