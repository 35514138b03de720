import CallContracts.Proofs.Call.Binding

/-!
Calls that give some of their values by keyword.

* `Call.Spelling`: values for the first parameters, the first of them by position and the others by
  keyword, in any order;
* `Call.fill_spelling`: such a call fills the parameters as the call by position alone does, and so
  it binds alike (`Call.bind_spelling`);
* `Call.layout_fill`: a call by position alone is laid out as it is written, and
  `Call.layout_spelling`: so is every other spelling of it.

All of this holds behind parameters that get their values by position, such as those of receivers.
-/

namespace CallContracts.Call

variable {δ α : Type} {pre ps qs : List (Parameter δ)} {rs us vs args args' : List α}
  {kw kw' : Keywords α} {name : String} {v : α} {k : ℕ}

/-! ### Keywords -/

lemma hasKeyword_eq_true_iff : hasKeyword name kw = true ↔ name ∈ kw.map Prod.fst := by
  simp [hasKeyword]

/-- A keyword that is given once has its value. -/
lemma lookup_of_mem (hkw : (kw.map Prod.fst).Nodup) (h : (name, v) ∈ kw) :
    kw.lookup name = some v := by
  obtain ⟨before, after, rfl⟩ := List.append_of_mem h
  refine List.lookup_eq_some_iff.2 ⟨before, after, rfl, fun q hq => ?_⟩
  rw [List.map_append, List.nodup_append] at hkw
  have hne := hkw.2.2 q.1 (List.mem_map_of_mem hq) name (by simp)
  simpa using hne.symm

/-- What is left of keywords once the first is taken away. -/
lemma withoutKeyword_perm (hkw : kw.Perm ((name, v) :: kw')) (hname : name ∉ kw'.map Prod.fst) :
    (withoutKeyword name kw).Perm kw' := by
  have hrest : kw'.filter (·.1 != name) = kw' := by
    refine List.filter_eq_self.2 fun q hq => ?_
    have hne : q.1 ≠ name := fun heq => hname (heq ▸ List.mem_map_of_mem hq)
    simpa using hne
  have hperm := hkw.filter (·.1 != name)
  rwa [List.filter_cons_of_neg (by simp), hrest] at hperm

/-! ### Filling parameters -/

/-- Positions go to the first parameters, whatever the rest of the call gives. -/
lemma fill_append_congr (hps : ∀ p ∈ ps, p.isPositional = true) (hlength : ps.length = us.length)
    (hkw : ∀ p ∈ ps, hasKeyword p.name kw = false) (hkw' : ∀ p ∈ ps, hasKeyword p.name kw' = false)
    (h : fill qs args kw = fill qs args' kw') :
    fill (ps ++ qs) (us ++ args) kw = fill (ps ++ qs) (us ++ args') kw' := by
  induction ps generalizing us with
  | nil =>
    obtain rfl := List.length_eq_zero_iff.1 hlength.symm
    exact h
  | cons p ps ih =>
    rcases us with _ | ⟨u, us⟩
    · simp at hlength
    rw [List.forall_mem_cons] at hps hkw hkw'
    have hrest := ih hps.2 (by simpa using hlength) hkw.2 hkw'.2
    have hp := hps.1
    rcases hkind : p.kind
    · simp only [List.cons_append, fill, hkind, hrest]
    · simp only [List.cons_append, fill, hkind, hkw.1, hkw'.1, hrest]
    all_goals simp [Parameter.isPositional, hkind] at hp

/-- Keywords for the next parameters do what positions do. -/
lemma fill_keywords (hps : ∀ p ∈ ps, p.kind = .positional)
    (hnames : (ps.map Parameter.name).Nodup) (hlength : ps.length = vs.length)
    (hkw : kw.Perm ((ps.map Parameter.name).zip vs)) :
    fill (ps ++ qs) [] kw = fill (ps ++ qs) vs [] := by
  induction ps generalizing vs kw with
  | nil =>
    obtain rfl := List.length_eq_zero_iff.1 hlength.symm
    rw [hkw.eq_nil]
  | cons p ps ih =>
    rcases vs with _ | ⟨v, vs⟩
    · simp at hlength
    rw [List.forall_mem_cons] at hps
    rw [List.map_cons, List.nodup_cons] at hnames
    have hlength' : ps.length = vs.length := by simpa using hlength
    have hzip : ((ps.map Parameter.name).zip vs).map Prod.fst = ps.map Parameter.name :=
      List.map_fst_zip (by simp [hlength'])
    rw [List.map_cons, List.zip_cons_cons] at hkw
    have hlookup : kw.lookup p.name = some v := by
      refine lookup_of_mem ?_ (hkw.mem_iff.2 List.mem_cons_self)
      rw [(hkw.map Prod.fst).nodup_iff, List.map_cons, hzip]
      exact List.nodup_cons.2 hnames
    have hrest := ih hps.2 hnames.2 hlength'
      (withoutKeyword_perm hkw (by rw [hzip]; exact hnames.1))
    have hnone : hasKeyword p.name ([] : Keywords α) = false := rfl
    simp only [List.cons_append, fill, hps.1, hlookup, hnone, hrest]
    rfl

/-- Values for the first parameters fill them. -/
lemma exists_fill_positions (hps : ∀ p ∈ ps, p.isPositional = true)
    (hlength : ps.length = us.length) : ∃ slots, fill (ps ++ qs) us [] = some (slots, []) := by
  induction ps generalizing us with
  | nil =>
    obtain rfl := List.length_eq_zero_iff.1 hlength.symm
    clear hps hlength
    rw [List.nil_append]
    induction qs with
    | nil => exact ⟨[], rfl⟩
    | cons q qs ih =>
      obtain ⟨slots, hslots⟩ := ih
      rcases hkind : q.kind <;>
        exact ⟨_, by simp only [fill, hkind, List.lookup_nil, hslots]; rfl⟩
  | cons p ps ih =>
    rcases us with _ | ⟨u, us⟩
    · simp at hlength
    rw [List.forall_mem_cons] at hps
    obtain ⟨slots, hslots⟩ := ih hps.2 (by simpa using hlength)
    have hp := hps.1
    refine ⟨.given u :: slots, ?_⟩
    rcases hkind : p.kind
    · simp only [List.cons_append, fill, hkind, hslots]
      rfl
    · simp only [List.cons_append, fill, hkind, hslots]
      rfl
    all_goals simp [Parameter.isPositional, hkind] at hp

/-! ### The layout of a call by position -/

section layout

variable {slots : List (Slot α)} {left : Keywords α}

/-- Parameters that a call leaves open are not laid out. -/
lemma layoutFrom_of_fill_nil (filler : α) (pending : ℕ)
    (h : fill ps [] [] = some (slots, left)) : layoutFrom filler pending ps slots = [] := by
  induction ps generalizing pending slots with
  | nil => simp [layoutFrom]
  | cons p ps ih =>
    have hcons : ∀ s : Slot α, consSlot s (fill ps [] []) = some (slots, left) →
        (p.isPositional = true → s = .omitted) → (∀ us, s = .rest us → us = []) →
          layoutFrom filler pending (p :: ps) slots = [] := by
      intro s hs homitted hrest
      obtain ⟨slots, hslots, rfl⟩ := exists_of_consSlot hs
      unfold layoutFrom
      by_cases hp : p.isPositional = true
      · obtain rfl := homitted hp
        rw [if_pos hp]
        exact ih (pending + 1) hslots
      · rw [if_neg hp]
        cases s with
        | rest us => exact hrest us rfl
        | given _ | omitted | named _ => rfl
    rcases hkind : p.kind <;> simp only [fill, hkind, List.lookup_nil] at h
    all_goals exact hcons _ h (by simp [Parameter.isPositional, hkind]) (by simp)

/-- **A call by position alone** is laid out as it is written. -/
lemma layout_fill (filler : α) (h : fill ps args [] = some (slots, left)) :
    layout filler ps slots = args := by
  rw [layout]
  induction ps generalizing args slots with
  | nil =>
    rcases args with _ | ⟨a, args⟩
    · simp [layoutFrom]
    · simp [fill] at h
  | cons p ps ih =>
    rcases args with _ | ⟨a, args⟩
    · exact layoutFrom_of_fill_nil filler 0 h
    have hgiven : p.isPositional = true → consSlot (.given a) (fill ps args []) =
        some (slots, left) → layoutFrom filler 0 (p :: ps) slots = a :: args := by
      intro hp hs
      obtain ⟨slots, hslots, rfl⟩ := exists_of_consSlot hs
      rw [layoutFrom, if_pos hp, ih hslots]
      rfl
    rcases hkind : p.kind <;> simp only [fill, hkind, reduceCtorEq] at h
    · exact hgiven (by simp [Parameter.isPositional, hkind]) h
    · exact hgiven (by simp [Parameter.isPositional, hkind]) h
    · obtain ⟨slots, -, rfl⟩ := exists_of_consSlot h
      rw [layoutFrom, if_neg (by simp [Parameter.isPositional, hkind])]

end layout

/-! ### Spellings -/

/-- A call gives the values `us` by position, and the values `ws` of the parameters that come next
by keyword, in any order. -/
structure Spelling (ps qs : List (Parameter δ)) (us ws : List α) (kw : Keywords α) : Prop where
  takes_positions : ∀ p ∈ ps, p.isPositional = true
  length_positions : ps.length = us.length
  takes_keywords : ∀ q ∈ qs, q.kind = .positional
  length_keywords : qs.length = ws.length
  keywords : kw.Perm ((qs.map Parameter.name).zip ws)

section spelling

variable {tail : List (Parameter δ)} {ws : List α} {p : Parameter δ}

namespace Spelling

/-- One more value by position in front. -/
lemma cons (h : Spelling ps qs us ws kw) (hp : p.isPositional = true) (u : α) :
    Spelling (p :: ps) qs (u :: us) ws kw where
  takes_positions := by
    rw [List.forall_mem_cons]
    exact ⟨hp, h.takes_positions⟩
  length_positions := by simp [h.length_positions]
  takes_keywords := h.takes_keywords
  length_keywords := h.length_keywords
  keywords := h.keywords

/-- The keywords are the names of the parameters that take them. -/
lemma hasKeyword_iff (h : Spelling ps qs us ws kw) :
    hasKeyword name kw = true ↔ ∃ q ∈ qs, q.name = name := by
  have hzip : ((qs.map Parameter.name).zip ws).map Prod.fst = qs.map Parameter.name :=
    List.map_fst_zip (by simp [h.length_keywords])
  rw [hasKeyword_eq_true_iff, (h.keywords.map Prod.fst).mem_iff, hzip, List.mem_map]

end Spelling

/-- **A spelling fills the parameters** as the call by position alone does. -/
lemma fill_spelling (h : Spelling ps qs us ws kw)
    (hnames : ((ps ++ (qs ++ tail)).map Parameter.name).Nodup) :
    fill (ps ++ (qs ++ tail)) us kw = fill (ps ++ (qs ++ tail)) (us ++ ws) [] := by
  rw [List.map_append, List.nodup_append, List.map_append, List.nodup_append] at hnames
  have hkw : ∀ p ∈ ps, hasKeyword p.name kw = false := by
    intro p hp
    rw [← Bool.not_eq_true, h.hasKeyword_iff]
    rintro ⟨q, hq, heq⟩
    exact hnames.2.2 p.name (List.mem_map_of_mem hp) q.name
      (List.mem_append_left _ (List.mem_map_of_mem hq)) heq.symm
  have hrest : fill (qs ++ tail) [] kw = fill (qs ++ tail) ws [] :=
    fill_keywords h.takes_keywords hnames.2.1.1 h.length_keywords h.keywords
  simpa using fill_append_congr h.takes_positions h.length_positions hkw (fun _ _ => rfl) hrest

/-- So it binds alike. -/
lemma bind_spelling (h : Spelling ps qs us ws kw)
    (hnames : ((ps ++ (qs ++ tail)).map Parameter.name).Nodup) :
    bind (ps ++ (qs ++ tail)) us kw = bind (ps ++ (qs ++ tail)) (us ++ ws) [] := by
  rw [bind, bind, slots?, slots?, fill_spelling h hnames]

/-- **A spelling is laid out** as the call by position alone is written. -/
lemma layout_spelling (h : Spelling ps qs us ws kw)
    (hnames : ((ps ++ (qs ++ tail)).map Parameter.name).Nodup) (filler : α) :
    ∃ slots, bindPartial (ps ++ (qs ++ tail)) us kw = some slots ∧
      layout filler (ps ++ (qs ++ tail)) slots = us ++ ws := by
  have hpositional : ∀ p ∈ ps ++ qs, p.isPositional = true := by
    rw [List.forall_mem_append]
    refine ⟨h.takes_positions, fun q hq => ?_⟩
    rw [Parameter.isPositional, h.takes_keywords q hq]
  obtain ⟨slots, hslots⟩ : ∃ slots, fill (ps ++ (qs ++ tail)) (us ++ ws) [] = some (slots, []) := by
    rw [← List.append_assoc]
    exact exists_fill_positions hpositional (by simp [h.length_positions, h.length_keywords])
  have hnamed : namesOpen (ps ++ (qs ++ tail)) slots kw = false := by
    -- a keyword names a parameter that takes keywords, and no other parameter has its name
    rw [namesOpen, List.any_eq_false]
    rintro ⟨p, s⟩ hmem htrue
    simp only [Bool.and_eq_true, beq_iff_eq] at htrue
    obtain ⟨q, hq, hname⟩ := h.hasKeyword_iff.1 htrue.2
    have heq : q = p :=
      List.inj_on_of_nodup_map hnames (by simp [hq]) (List.of_mem_zip hmem).1 hname
    rw [← heq, h.takes_keywords q hq] at htrue
    simp at htrue
  refine ⟨slots, ?_, layout_fill filler hslots⟩
  simp [bindPartial, slots?, fill_spelling h hnames, hslots, hnamed]

end spelling

end CallContracts.Call
