import CallContracts.Enforcement.Signing
import CallContracts.Proofs.Call.Keywords
import Mathlib.Data.List.DropRight

/-!
Values in line with their parameters.

A check sees the values of a call in the order of the parameters, however the call gives them.

* `Parameter.Declarable`: the parameter lists of functions;
* `Call.supplied?`: what a call gives to the parameter at a place, and `Call.slots_supplied`: this
  is what the parameter is bound to;
* `Call.inLine`: values in line with the parameters, and `Call.layout_eq_inLine`: a call is laid
  out like that;
* `Call.InLine`: what it is for a list of values to be in line with the parameters;
* `Enforcer.positionalValues_inLine`: **a check sees every value at the place of its parameter**.
-/

namespace CallContracts

/-! ### Parameter lists -/

/-- The place of a kind among the kinds of a parameter list. -/
def ParameterKind.rank : ParameterKind → ℕ
  | .positionalOnly => 0
  | .positional => 1
  | .variadic => 2
  | .keywordOnly => 3
  | .keywords => 4

namespace Parameter

variable {δ : Type} {p q : Parameter δ} {ps : List (Parameter δ)}

/-- A parameter can stand in front of another one: the kinds come in their order, and no second
parameter takes all further positions or all further keywords. -/
def Before (p q : Parameter δ) : Prop :=
  p.kind.rank < q.kind.rank ∨ p.kind = q.kind ∧ p.kind ∉ [.variadic, .keywords]

instance (p q : Parameter δ) : Decidable (Before p q) := inferInstanceAs (Decidable (_ ∨ _))

/-- The parameter lists of functions: the parameters come in the order of their kinds and have
different names. -/
structure Declarable (ps : List (Parameter δ)) : Prop where
  ordered : ps.Pairwise Before
  nodup : (ps.map name).Nodup

lemma isPositional_iff_rank : p.isPositional = true ↔ p.kind.rank < 2 := by
  rcases hkind : p.kind <;> simp [isPositional, hkind, ParameterKind.rank]

lemma isVariadic_iff_rank : p.isVariadic = true ↔ p.kind.rank = 2 := by
  rcases hkind : p.kind <;> simp [isVariadic, hkind, ParameterKind.rank]

lemma not_isVariadic_of_isPositional (hp : p.isPositional = true) : p.isVariadic = false := by
  rw [← Bool.not_eq_true, isVariadic_iff_rank]
  rw [isPositional_iff_rank] at hp
  omega

/-- Behind a parameter that no position fills there is none that one fills. -/
lemma declaredCount_of_not_positional (h : (p :: ps).Pairwise Before)
    (hp : p.isPositional = false) : declaredCount (p :: ps) = 0 := by
  rw [List.pairwise_cons] at h
  rw [declaredCount, List.countP_eq_zero, List.forall_mem_cons]
  rw [← Bool.not_eq_true, isPositional_iff_rank] at hp
  refine ⟨by rwa [isPositional_iff_rank], fun q hq => ?_⟩
  rw [isPositional_iff_rank]
  rcases h.1 q hq with hlt | ⟨heq, -⟩
  · omega
  · rwa [← heq]

/-- Behind a parameter that no position fills there is none that takes all further positions. -/
lemma not_isVariadic_of_before (h : (p :: ps).Pairwise Before) (hp : p.isPositional = false) :
    ∀ q ∈ ps, q.isVariadic = false := by
  rw [List.pairwise_cons] at h
  rw [← Bool.not_eq_true, isPositional_iff_rank] at hp
  intro q hq
  rw [← Bool.not_eq_true, isVariadic_iff_rank]
  rcases h.1 q hq with hlt | ⟨heq, hnot⟩
  · omega
  · intro hrank
    rw [← heq] at hrank
    rcases hkind : p.kind <;> simp [hkind, ParameterKind.rank] at hrank hnot

lemma Declarable.tail (h : Declarable (p :: ps)) : Declarable ps where
  ordered := (List.pairwise_cons.1 h.ordered).2
  nodup := (List.nodup_cons.1 h.nodup).2

lemma Declarable.ne_name (h : Declarable (p :: ps)) : ∀ q ∈ ps, q.name ≠ p.name :=
  fun _ hq hname => (List.nodup_cons.1 h.nodup).1 (hname ▸ List.mem_map_of_mem hq)

end Parameter

/-- The value of a slot of its own. -/
def Slot.value? {α : Type} : Slot α → Option α
  | .given v => some v
  | _ => none

namespace Call

variable {δ α : Type} {p : Parameter δ} {ps : List (Parameter δ)} {a filler : α}
  {args us : List α} {kw left : Keywords α} {slots : List (Slot α)} {name : String} {i k n : ℕ}
  {f : ℕ → Option α}

/-! ### What a call gives to a parameter -/

/-- What a call gives to the parameter at a place: the value at this position, or else the one by
its keyword, if the parameter takes one. -/
def supplied? (ps : List (Parameter δ)) (args : List α) (kw : Keywords α) (i : ℕ) : Option α :=
  args[i]?.or (ps[i]?.bind fun p => if p.kind = .positional then kw.lookup p.name else none)

lemma supplied?_cons_succ :
    supplied? (p :: ps) (a :: args) kw (i + 1) = supplied? ps args kw i := by
  simp [supplied?]

lemma supplied?_nil_zero :
    supplied? (p :: ps) [] kw 0 = if p.kind = .positional then kw.lookup p.name else none := by
  simp [supplied?]

lemma supplied?_nil_succ :
    supplied? (p :: ps) [] kw (i + 1) = supplied? ps [] kw i := by
  simp [supplied?]

/-- A position supplies its parameter. -/
lemma isSome_supplied?_of_lt (h : i < args.length) : (supplied? ps args kw i).isSome = true := by
  simp [supplied?, List.getElem?_eq_getElem h]

lemma lookup_withoutKeyword {name' : String} (h : name' ≠ name) :
    (withoutKeyword name kw).lookup name' = kw.lookup name' := by
  induction kw with
  | nil => rfl
  | cons e kw ih =>
    obtain ⟨key, v⟩ := e
    rw [withoutKeyword] at ih ⊢
    by_cases hkey : key = name
    · have hne : (name' == key) = false := by simpa [hkey] using h
      rw [List.filter_cons_of_neg (by simp [hkey]), ih, List.lookup_cons, hne]
    · rw [List.filter_cons_of_pos (by simpa using hkey), List.lookup_cons, List.lookup_cons, ih]

/-- A keyword that was taken does not count for parameters with other names. -/
lemma supplied?_withoutKeyword (h : ∀ q ∈ ps, q.name ≠ name) :
    supplied? ps args (withoutKeyword name kw) i = supplied? ps args kw i := by
  have hlookup : ∀ q, ps[i]? = some q → (withoutKeyword name kw).lookup q.name =
      kw.lookup q.name := fun q hq => lookup_withoutKeyword (h q (List.mem_of_getElem? hq))
  rcases hi : ps[i]? with _ | q
  · simp [supplied?, hi]
  · simp [supplied?, hi, hlookup q hi]

/-! ### What a parameter is bound to -/

/-- What the slots of parameters hold: the values that are supplied for parameters that a position
can fill, and the further ones for the parameter that takes all further positions. Without such a
parameter there are no further ones. -/
structure Holds (ps : List (Parameter δ)) (slots : List (Slot α)) (supplied : ℕ → Option α)
    (further : List α) : Prop where
  positional : ∀ i < Parameter.declaredCount ps, slots[i]?.map Slot.value? = some (supplied i)
  variadic : ∀ q ∈ ps.zip slots, q.1.isVariadic = true → q.2 = .rest further
  nothing : (∀ p ∈ ps, p.isVariadic = false) → further = []

lemma Holds.cons_positional {s : Slot α} {g : ℕ → Option α} (h : Holds ps slots f us)
    (hp : p.isPositional = true) (hs : s.value? = g 0) (hg : ∀ i, g (i + 1) = f i) :
    Holds (p :: ps) (s :: slots) g us where
  positional := by
    intro i hi
    rw [Parameter.declaredCount, List.countP_cons_of_pos hp] at hi
    rcases i with _ | i
    · simp [hs]
    · rw [List.getElem?_cons_succ, hg]
      exact h.positional i (Nat.lt_of_succ_lt_succ hi)
  variadic := by
    rw [List.zip_cons_cons, List.forall_mem_cons]
    refine ⟨fun hvariadic => ?_, h.variadic⟩
    simp [Parameter.not_isVariadic_of_isPositional hp] at hvariadic
  nothing hall := h.nothing (List.forall_mem_cons.1 hall).2

lemma Holds.tail {s : Slot α} (h : Holds (p :: ps) (s :: slots) f us)
    (hp : p.isPositional = true) : Holds ps slots (fun i => f (i + 1)) us where
  positional i hi := by
    have hlt : i + 1 < Parameter.declaredCount (p :: ps) := by
      rw [Parameter.declaredCount, List.countP_cons_of_pos hp]
      exact Nat.succ_lt_succ hi
    simpa using h.positional (i + 1) hlt
  variadic q hq := h.variadic q (List.mem_cons_of_mem _ hq)
  nothing hall :=
    h.nothing (List.forall_mem_cons.2 ⟨Parameter.not_isVariadic_of_isPositional hp, hall⟩)

/-- Behind the parameters that a position can fill. -/
lemma Holds.cons_of_not_positional {s : Slot α} (h : (p :: ps).Pairwise Parameter.Before)
    (hp : p.isPositional = false) (hs : p.isVariadic = true → s = .rest us)
    (hnothing : (∀ q ∈ p :: ps, q.isVariadic = false) → us = []) :
    Holds (p :: ps) (s :: slots) f us where
  positional := by simp [Parameter.declaredCount_of_not_positional h hp]
  variadic := by
    rw [List.zip_cons_cons, List.forall_mem_cons]
    refine ⟨hs, fun q hq hvariadic => ?_⟩
    rw [Parameter.not_isVariadic_of_before h hp q.1 (List.of_mem_zip hq).1] at hvariadic
    simp at hvariadic
  nothing := hnothing

/-- No position is left over if no parameter takes all further positions. -/
lemma drop_eq_nil_of_fill (h : fill ps args kw = some (slots, left))
    (hvariadic : ∀ p ∈ ps, p.isVariadic = false) :
    args.drop (Parameter.declaredCount ps) = [] :=
  List.drop_eq_nil_iff.2 (length_le_of_fill hvariadic h)

/-- **Filling parameters gives each of them what the call supplies.** -/
lemma holds_of_fill (hps : Parameter.Declarable ps) (h : fill ps args kw = some (slots, left)) :
    Holds ps slots (supplied? ps args kw) (args.drop (Parameter.declaredCount ps)) := by
  induction ps generalizing args kw slots with
  | nil =>
    exact ⟨by simp [Parameter.declaredCount], by simp, drop_eq_nil_of_fill h⟩
  | cons p ps ih =>
    have hpositional : ∀ {s : Slot α} {args' : List α} {kw' : Keywords α},
        p.isPositional = true → consSlot s (fill ps args' kw') = some (slots, left) →
          s.value? = supplied? (p :: ps) args kw 0 →
          (∀ i, supplied? (p :: ps) args kw (i + 1) = supplied? ps args' kw' i) →
          args.drop (Parameter.declaredCount (p :: ps)) =
            args'.drop (Parameter.declaredCount ps) →
          Holds (p :: ps) slots (supplied? (p :: ps) args kw)
            (args.drop (Parameter.declaredCount (p :: ps))) := by
      intro s args' kw' hp hfill hs hsupplied hdrop
      obtain ⟨rest, hrest, rfl⟩ := exists_of_consSlot hfill
      rw [hdrop]
      exact (ih hps.tail hrest).cons_positional hp hs hsupplied
    have hother : ∀ {s : Slot α} {args' : List α} {kw' : Keywords α},
        p.isPositional = false → consSlot s (fill ps args' kw') = some (slots, left) →
          (p.isVariadic = true → s = .rest args) →
          Holds (p :: ps) slots (supplied? (p :: ps) args kw)
            (args.drop (Parameter.declaredCount (p :: ps))) := by
      intro s args' kw' hp hfill hs
      obtain ⟨rest, -, rfl⟩ := exists_of_consSlot hfill
      refine .cons_of_not_positional hps.ordered hp ?_ (drop_eq_nil_of_fill h)
      rwa [Parameter.declaredCount_of_not_positional hps.ordered hp, List.drop_zero]
    have hcount : p.isPositional = true →
        Parameter.declaredCount (p :: ps) = Parameter.declaredCount ps + 1 :=
      fun hp => List.countP_cons_of_pos hp
    have htaken : ∀ i, supplied? ps ([] : List α) (withoutKeyword p.name kw) i =
        supplied? ps [] kw i := fun _ => supplied?_withoutKeyword hps.ne_name
    simp only [fill] at h
    split at h
    · next hkind =>
      have hp : p.isPositional = true := by simp [Parameter.isPositional, hkind]
      exact hpositional hp h rfl (fun _ => supplied?_cons_succ) (by rw [hcount hp]; simp)
    · next hkind =>
      have hp : p.isPositional = true := by simp [Parameter.isPositional, hkind]
      exact hpositional hp h (by simp [supplied?_nil_zero, hkind, Slot.value?])
        (fun _ => supplied?_nil_succ) (by simp)
    · next hkind =>
      have hp : p.isPositional = true := by simp [Parameter.isPositional, hkind]
      split at h
      · simp at h
      · exact hpositional hp h rfl (fun _ => supplied?_cons_succ) (by rw [hcount hp]; simp)
    · next hkind =>
      have hp : p.isPositional = true := by simp [Parameter.isPositional, hkind]
      split at h
      · next v hlookup =>
        refine hpositional hp h (by simp [supplied?_nil_zero, hkind, hlookup, Slot.value?])
          (fun i => ?_) (by simp)
        rw [supplied?_nil_succ, htaken]
      · next hlookup =>
        exact hpositional hp h (by simp [supplied?_nil_zero, hkind, hlookup, Slot.value?])
          (fun _ => supplied?_nil_succ) (by simp)
    · next hkind => exact hother (by simp [Parameter.isPositional, hkind]) h fun _ => rfl
    · next hkind =>
      have hp : p.isPositional = false := by simp [Parameter.isPositional, hkind]
      have hs : p.isVariadic ≠ true := by simp [Parameter.isVariadic, hkind]
      split at h
      · exact hother hp h fun hvariadic => absurd hvariadic hs
      · exact hother hp h fun hvariadic => absurd hvariadic hs
    · next hkind =>
      exact hother (by simp [Parameter.isPositional, hkind]) h fun hvariadic => by
        simp [Parameter.isVariadic, hkind] at hvariadic
    · simp at h
    · simp at h

/-- The keywords that are left over go to the parameter that collects them. -/
lemma Holds.collect (h : Holds ps slots f us) : Holds ps (collect left slots) f us where
  positional := by
    intro i hi
    rw [Call.collect, List.getElem?_map, Option.map_map, ← h.positional i hi]
    congr 1
    funext s
    cases s <;> rfl
  variadic := by
    intro q hq hvariadic
    rw [Call.collect, List.zip_map_right] at hq
    obtain ⟨q', hq', rfl⟩ := List.mem_map.1 hq
    simp only [Prod.map_fst, id_eq] at hvariadic
    simp [h.variadic q' hq' hvariadic]
  nothing := h.nothing

lemma slots?_of_bindPartial (h : bindPartial ps args kw = some slots) :
    slots? ps args kw = some slots := by
  rw [bindPartial] at h
  split at h
  · simp at h
  · next filled hslots =>
    split at h
    · simp at h
    · rwa [Option.some.inj h] at hslots

/-- **A parameter is bound to what the call supplies.** -/
lemma slots_supplied (hps : Parameter.Declarable ps) (h : bindPartial ps args kw = some slots) :
    Holds ps slots (supplied? ps args kw) (args.drop (Parameter.declaredCount ps)) := by
  obtain ⟨filled, left, hfill, rfl | rfl⟩ := exists_fill_of_slots? (slots?_of_bindPartial h)
  · exact holds_of_fill hps hfill
  · exact (holds_of_fill hps hfill).collect

/-! ### Values in line -/

/-- Values in line with parameters: one for each place up to the last that is supplied, with a
filler for those that are not, and then the further ones. -/
def inLine (filler : α) (n : ℕ) (supplied : ℕ → Option α) (further : List α) : List α :=
  (((List.range n).map supplied).rdropWhile Option.isNone).map (·.getD filler) ++ further

/-- Behind open places the last one that is not open stays. -/
lemma rdropWhile_append_cons {β : Type} {P : β → Bool} {b : β} (hb : P b = false)
    (as bs : List β) : (as ++ b :: bs).rdropWhile P = as ++ b :: bs.rdropWhile P := by
  induction bs using List.reverseRecOn with
  | nil => rw [List.rdropWhile_concat_neg _ _ _ (by simp [hb]), List.rdropWhile_nil]
  | append_singleton bs c ih =>
    rw [show as ++ b :: (bs ++ [c]) = (as ++ b :: bs) ++ [c] by simp]
    by_cases hc : P c = true
    · rw [List.rdropWhile_concat_pos _ _ _ hc, List.rdropWhile_concat_pos _ _ _ hc, ih]
    · rw [List.rdropWhile_concat_neg _ _ _ hc, List.rdropWhile_concat_neg _ _ _ hc]
      simp

/-- The layout of slots, with some open places owed a filler. -/
lemma layoutFrom_eq (hps : ps.Pairwise Parameter.Before) (hlength : slots.length = ps.length)
    (h : Holds ps slots f us)
    (hrest : ∀ q ∈ ps.zip slots, ∀ vs, q.2 = .rest vs → q.1.isVariadic = true) :
    layoutFrom filler k ps slots =
      ((List.replicate k none ++ (List.range (Parameter.declaredCount ps)).map f).rdropWhile
        Option.isNone).map (fun o : Option α => o.getD filler) ++ us := by
  have hopen : ∀ k, (List.replicate k (none : Option α)).rdropWhile Option.isNone = [] :=
    fun k => List.rdropWhile_eq_nil_iff.2 fun o ho => by simp [List.eq_of_mem_replicate ho]
  induction ps generalizing slots f k with
  | nil => simp [layoutFrom, Parameter.declaredCount, hopen, h.nothing]
  | cons p ps ih =>
    rcases slots with _ | ⟨s, slots⟩
    · simp at hlength
    unfold layoutFrom
    by_cases hp : p.isPositional = true
    · have hcount : Parameter.declaredCount (p :: ps) = Parameter.declaredCount ps + 1 :=
        List.countP_cons_of_pos hp
      have hlater := fun k => ih (k := k) (List.pairwise_cons.1 hps).2 (by simpa using hlength)
        (h.tail hp) fun q hq => hrest q (List.mem_cons_of_mem _ hq)
      have hs : s.value? = f 0 := by simpa using h.positional 0 (by omega)
      rw [if_pos hp, hcount, List.range_succ_eq_map, List.map_cons, List.map_map, ← hs]
      cases s with
      | given v =>
        have hnow := hlater 0
        rw [List.replicate_zero, List.nil_append] at hnow
        rw [Slot.value?, rdropWhile_append_cons rfl]
        simp [hnow, Function.comp_def]
      | omitted | rest _ | named _ =>
        simp only [Slot.value?, hlater, List.replicate_succ', List.append_assoc,
          List.singleton_append, Function.comp_def]
    · rw [Bool.not_eq_true] at hp
      rw [if_neg (by simp [hp]), Parameter.declaredCount_of_not_positional hps hp]
      simp only [List.range_zero, List.map_nil, List.append_nil, hopen, List.nil_append]
      by_cases hvariadic : p.isVariadic = true
      · obtain rfl : s = .rest us := h.variadic (p, s) (by simp) hvariadic
        rfl
      · have hs : ∀ vs, s ≠ .rest vs := fun vs hvs =>
          hvariadic (hrest (p, s) (by simp) vs hvs)
        rw [Bool.not_eq_true] at hvariadic
        rw [h.nothing (List.forall_mem_cons.2
          ⟨hvariadic, Parameter.not_isVariadic_of_before hps hp⟩)]
        cases s with
        | rest vs => exact absurd rfl (hs vs)
        | given _ | omitted | named _ => rfl

/-- **A call is laid out in line with its parameters.** -/
lemma layout_eq_inLine (hps : Parameter.Declarable ps) (h : bindPartial ps args kw = some slots)
    (filler : α) :
    layout filler ps slots = inLine filler (Parameter.declaredCount ps) (supplied? ps args kw)
      (args.drop (Parameter.declaredCount ps)) := by
  have hslots := slots?_of_bindPartial h
  rw [layout, layoutFrom_eq hps.ordered (length_slots? hslots) (slots_supplied hps h)
    (isVariadic_of_slots? hslots), List.replicate_zero, List.nil_append, inLine]

/-! ### What it is to be in line -/

/-- A list of values is in line with the parameters of a call: what is supplied for a place stands
there, and a filler where nothing is; the further values follow behind all places. Without further
values the list ends with the last place that is supplied. -/
structure InLine (filler : α) (n : ℕ) (supplied : ℕ → Option α) (further values : List α) :
    Prop where
  place : ∀ i < n, i < values.length → values[i]? = some ((supplied i).getD filler)
  behind : ∀ i, values[n + i]? = further[i]?
  length_of_further : further ≠ [] → values.length = n + further.length
  length_of_none : further = [] → values.length =
    (((List.range n).filter fun i => (supplied i).isSome).getLast?.map (· + 1)).getD 0
  last : ∀ i < n, i + 1 = values.length → (supplied i).isSome = true

/-- The places up to the last that is supplied. -/
lemma length_rdropWhile_isNone (f : ℕ → Option α) (n : ℕ) :
    (((List.range n).map f).rdropWhile Option.isNone).length =
      (((List.range n).filter fun i => (f i).isSome).getLast?.map (· + 1)).getD 0 := by
  induction n with
  | zero => rfl
  | succ n ih =>
    rw [List.range_succ, List.map_append, List.map_singleton, List.filter_append]
    rcases hf : f n with _ | v
    · rw [List.rdropWhile_concat_pos _ _ _ rfl, ih]
      simp [hf]
    · rw [List.rdropWhile_concat_neg _ _ _ (by simp)]
      simp [hf]

/-- The last place is not open. -/
lemma isSome_getElem_rdropWhile {os : List (Option α)}
    (hlast : i + 1 = (os.rdropWhile Option.isNone).length) :
    ∃ v, (os.rdropWhile Option.isNone)[i]? = some (some v) := by
  have hne : os.rdropWhile Option.isNone ≠ [] := by
    intro hnil
    simp [hnil] at hlast
  have hnot := List.rdropWhile_last_not Option.isNone os hne
  rw [Option.isNone_iff_eq_none, ← Ne, Option.ne_none_iff_exists'] at hnot
  obtain ⟨v, hv⟩ := hnot
  refine ⟨v, ?_⟩
  rw [← hv, ← List.getLast?_eq_some_getLast hne, List.getLast?_eq_getElem?, ← hlast,
    Nat.add_sub_cancel]

/-- If the further values come behind places that are all supplied, values in line are what their
name says. -/
lemma inLine_spec (filler : α) (h : us ≠ [] → ∀ i < n, (f i).isSome = true) :
    InLine filler n f us (inLine filler n f us) := by
  have hplace : ∀ i < n, ((List.range n).map f)[i]? = some (f i) := fun i hi => by simp [hi]
  rcases eq_or_ne us [] with rfl | hus
  · have hshort : (((List.range n).map f).rdropWhile Option.isNone).length ≤ n := by
      have hle := (List.rdropWhile_prefix Option.isNone ((List.range n).map f)).length_le
      simpa using hle
    have hkept : ∀ i < (((List.range n).map f).rdropWhile Option.isNone).length,
        (((List.range n).map f).rdropWhile Option.isNone)[i]? = some (f i) := fun i hi => by
      rw [← hplace i (by omega), List.getElem?_eq_getElem hi]
      exact (List.prefix_iff_getElem?.1 (List.rdropWhile_prefix _ _) i hi).symm
    have hvalues : inLine filler n f [] =
        (((List.range n).map f).rdropWhile Option.isNone).map (·.getD filler) := List.append_nil _
    have hlength := congrArg List.length hvalues
    rw [List.length_map] at hlength
    refine ⟨fun i _ hi => ?_, fun i => ?_, fun hne => absurd rfl hne, fun _ => ?_,
      fun i _ hi => ?_⟩
    · rw [hvalues, List.getElem?_map, hkept i (by omega), Option.map_some]
    · rw [List.getElem?_eq_none (by omega), List.getElem?_nil]
    · rw [hlength, length_rdropWhile_isNone]
    · obtain ⟨v, hv⟩ := isSome_getElem_rdropWhile (hi.trans hlength)
      rw [hkept i (by omega)] at hv
      simp [Option.some.inj hv]
  · have hwhole : ((List.range n).map f).rdropWhile Option.isNone = (List.range n).map f := by
      refine List.rdropWhile_eq_self_iff.2 fun hne => ?_
      obtain ⟨i, hi, hlast⟩ := List.mem_map.1 (List.getLast_mem hne)
      simpa [← hlast, Option.isSome_iff_ne_none] using h hus i (List.mem_range.1 hi)
    have hvalues : inLine filler n f us = ((List.range n).map f).map (·.getD filler) ++ us := by
      rw [inLine, hwhole]
    have hlength : (inLine filler n f us).length = n + us.length := by simp [hvalues]
    refine ⟨fun i hi _ => ?_, fun i => ?_, fun _ => hlength, fun hnil => absurd hnil hus,
      fun i hi _ => h hus i hi⟩
    · rw [hvalues, List.getElem?_append_left (by simpa using hi), List.getElem?_map, hplace i hi,
        Option.map_some]
    · rw [hvalues, List.getElem?_append_right (by simp)]
      simp

/-- Nothing else is in line. -/
lemma InLine.mem {values : List α} {v : α} (h : InLine filler n f us values) (hv : v ∈ values) :
    v = filler ∨ (∃ i < n, f i = some v) ∨ v ∈ us := by
  obtain ⟨i, hi, heq⟩ := List.mem_iff_getElem.1 hv
  have hat : values[i]? = some v := by rw [List.getElem?_eq_getElem hi, heq]
  by_cases hlt : i < n
  · rw [h.place i hlt hi] at hat
    cases hf : f i with
    | none =>
      left
      simpa [hf] using hat.symm
    | some u => exact .inr (.inl ⟨i, hlt, by simpa [hf] using hat⟩)
  · right
    right
    have hfurther := h.behind (i - n)
    rw [Nat.add_sub_cancel' (Nat.le_of_not_lt hlt), hat] at hfurther
    exact List.mem_of_getElem? hfurther.symm

/-- A call supplies the same values if the keywords of the parameters that take one are the same. -/
lemma supplied?_congr {kw' : Keywords α}
    (h : ∀ p ∈ ps, p.kind = .positional → kw'.lookup p.name = kw.lookup p.name) :
    supplied? ps args kw' = supplied? ps args kw := by
  funext i
  rcases hi : ps[i]? with _ | q
  · simp [supplied?, hi]
  · have hq := h q (List.mem_of_getElem? hi)
    simp only [supplied?, hi, Option.bind_some]
    split
    · next hkind => rw [hq hkind]
    · rfl

end Call

/-! ### Checks -/

namespace Enforcer

variable {ps : List (Parameter Value)} {args : List Value} {kw : Call.Keywords Value}
  {slots : List (Slot Value)}

lemma positionalValues_eq_inLine (hps : Parameter.Declarable ps) (hkw : kw ≠ [])
    (hbind : Call.bindPartial ps args kw = some slots) :
    positionalValues (some ps) args kw =
      pure (Call.inLine .absent (Parameter.declaredCount ps) (Call.supplied? ps args kw)
        (args.drop (Parameter.declaredCount ps))) := by
  rw [positionalValues, if_neg (by simpa using hkw)]
  simp only [hbind, Act.orMishap, Act.pure_bind, Call.layout_eq_inLine hps hbind]

/-- **A check sees every value at the place of its parameter.** Let a call with keywords bind to the
parameters of a function. A parameter that a position can fill is bound to the value at its place or
to that of its keyword, and the parameter for all further positions to the others. The check gets
these values in line: each at the place of its parameter, a filler for each parameter that is left
out in front of one that is not, and then the further values. Nothing else gets there: other
keywords make no difference. -/
theorem positionalValues_inLine (hps : Parameter.Declarable ps) (hkw : kw ≠ [])
    (hbind : Call.bindPartial ps args kw = some slots) :
    Call.Holds ps slots (Call.supplied? ps args kw) (args.drop (Parameter.declaredCount ps)) ∧
    ∃ values, positionalValues (some ps) args kw = pure values ∧
      Call.InLine .absent (Parameter.declaredCount ps) (Call.supplied? ps args kw)
        (args.drop (Parameter.declaredCount ps)) values ∧
      (∀ v ∈ values, v = .absent ∨
        (∃ i < Parameter.declaredCount ps, Call.supplied? ps args kw i = some v) ∨
          v ∈ args.drop (Parameter.declaredCount ps)) ∧
      ∀ kw' ≠ [], (Call.bindPartial ps args kw').isSome = true →
        (∀ p ∈ ps, p.kind = .positional → kw'.lookup p.name = kw.lookup p.name) →
          positionalValues (some ps) args kw' = pure values := by
  have hsupplied : args.drop (Parameter.declaredCount ps) ≠ [] →
      ∀ i < Parameter.declaredCount ps, (Call.supplied? ps args kw i).isSome = true := by
    intro hfurther i hi
    have hlength := List.length_pos_iff.2 hfurther
    rw [List.length_drop] at hlength
    exact Call.isSome_supplied?_of_lt (by omega)
  have hinLine := Call.inLine_spec Value.absent hsupplied
  refine ⟨Call.slots_supplied hps hbind, _, positionalValues_eq_inLine hps hkw hbind, hinLine,
    fun v => hinLine.mem, fun kw' hkw' hbind' hlookup => ?_⟩
  obtain ⟨slots', hslots'⟩ := Option.isSome_iff_exists.1 hbind'
  rw [positionalValues_eq_inLine hps hkw' hslots', Call.supplied?_congr hlookup]

/-- Parameters of all kinds, of which a call leaves out the second. -/
theorem positionalValues_inLine_omitted :
    let ps : List (Parameter Value) := [⟨"a", .positionalOnly, none⟩,
      ⟨"b", .positional, none⟩, ⟨"c", .positional, none⟩, ⟨"d", .positional, some .null⟩,
      ⟨"rest", .variadic, none⟩, ⟨"k", .keywordOnly, none⟩, ⟨"more", .keywords, none⟩]
    let kw : Call.Keywords Value := [("k", .int 9), ("c", .int 3), ("x", .int 8)]
    Parameter.Declarable ps ∧ kw ≠ [] ∧
      Call.bindPartial ps [.int 1] kw = some [.given (.int 1), .omitted, .given (.int 3), .omitted,
        .rest [], .given (.int 9), .named [("x", .int 8)]] ∧
      positionalValues (some ps) [.int 1] kw = pure [.int 1, .absent, .int 3] ∧
      positionalValues (some ps) [.int 1] [("c", .int 3), ("y", .int 7)] =
        pure [.int 1, .absent, .int 3] := by
  intro ps kw
  have hps : Parameter.Declarable ps := ⟨by decide, by decide⟩
  have hkw : kw ≠ [] := by decide
  have hbind : Call.bindPartial ps [.int 1] kw = some [.given (.int 1), .omitted,
      .given (.int 3), .omitted, .rest [], .given (.int 9), .named [("x", .int 8)]] := by rfl
  obtain ⟨-, values, hvalues, hinLine, -, hothers⟩ := positionalValues_inLine hps hkw hbind
  have hlength : values.length = 3 := hinLine.length_of_none rfl
  obtain ⟨a, b, c, rfl⟩ := List.length_eq_three.1 hlength
  obtain rfl : a = .int 1 := Option.some.inj (hinLine.place 0 (by decide) (by simp))
  obtain rfl : b = .absent := Option.some.inj (hinLine.place 1 (by decide) (by simp))
  obtain rfl : c = .int 3 := Option.some.inj (hinLine.place 2 (by decide) (by simp))
  exact ⟨hps, hkw, hbind, hvalues, hothers _ (by simp) rfl (by simp [ps, kw, List.lookup_cons])⟩

end Enforcer

end CallContracts
