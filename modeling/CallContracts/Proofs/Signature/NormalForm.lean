import CallContracts.Proofs.Signature.Soundness

/-!
The written form of a signature that was read.

* `Tree.settled`: the tree that the written form of a tree reads back as;
* `Tree.parse_text`: reading the written form gives the settled tree, or the fault of `()` beside
  other entries; both ways out are exact;
* `not_forall_parse_text`: so the written form does not always read back.
-/

namespace CallContracts

open Signature Text

/-! ### Settling -/

namespace Descriptor

/-- The descriptor as its written form shows it: no brackets stand around the name `()`. -/
def settled (d : Descriptor) : Descriptor :=
  if d.name = unitName ∧ d.detail ≠ .plain then { d with optional := false } else d

variable {d : Descriptor}

@[simp]
lemma settled_name : d.settled.name = d.name := by
  rw [settled]
  split <;> rfl

@[simp]
lemma settled_detail : d.settled.detail = d.detail := by
  rw [settled]
  split <;> rfl

lemma settled_label? : d.settled.label? = d.label? := by
  simp [label?]

lemma settled_text : d.settled.text = d.text := by
  rw [settled]
  split
  · next h => simp [text, typeText, h.1]
  · rfl

lemma settled_eq_unit_iff : d.settled = unit ↔ d = unit := by
  rw [settled]
  split
  · next h =>
    constructor
    · intro heq
      have := congrArg Descriptor.optional heq
      simp [unit] at this
    · rintro rfl
      exact absurd rfl h.2
  · exact Iff.rfl

/-- Settling changes just those descriptors whose written form hides that they are optional. -/
lemma settled_eq_self_iff :
    d.settled = d ↔ (d.name = unitName → d.optional = true → d.detail = .plain) := by
  rw [settled]
  split
  · next h =>
    constructor
    · intro heq _ hopt
      have := congrArg Descriptor.optional heq
      simp [hopt] at this
    · intro hplain
      have hopt : d.optional = false := by
        by_contra hopt
        exact h.2 (hplain h.1 (by simpa using hopt))
      rw [← hopt]
  · next h =>
    refine ⟨fun _ hname _ => ?_, fun _ => rfl⟩
    by_contra hdetail
    exact h ⟨hname, hdetail⟩

/-- A sound descriptor reads back once it is settled. -/
lemma Sound.readable_settled (hd : d.Sound) : d.settled.Readable := by
  rw [settled]
  split
  · next h =>
    refine ⟨⟨hd.trimmed, hd.chars, hd.detail, hd.named, ?_, fun hplain => absurd hplain h.2⟩,
      fun hopt => by simp at hopt⟩
    rintro - ⟨hhead, -⟩
    simp [h.1, unitName] at hhead
  · next h =>
    refine ⟨hd, fun _ hname => ?_⟩
    by_contra hdetail
    exact h ⟨hname, hdetail⟩

end Descriptor

namespace Tree

/-- The tree as its written form shows it. -/
def settled (t : Tree) : Tree := ⟨t.stages.map (·.map Descriptor.settled)⟩

variable {t : Tree}

lemma settled_text : t.settled.text = t.text := by
  have hstage : ∀ s : Stage, Stage.text (s.map Descriptor.settled) = s.text := by
    intro s
    simp [Stage.text, Function.comp_def, Descriptor.settled_text]
  simp [text, settled, Function.comp_def, hstage]

lemma isCrowded_settled_iff : t.settled.IsCrowded ↔ t.IsCrowded := by
  have hstage : ∀ s : Stage, Stage.IsCrowded (s.map Descriptor.settled) ↔ s.IsCrowded := by
    intro s
    simp [Stage.IsCrowded, Descriptor.settled_eq_unit_iff]
  simp [IsCrowded, settled, hstage]

lemma settled_eq_self_iff :
    t.settled = t ↔ ∀ s ∈ t.stages, ∀ d ∈ s, Descriptor.settled d = d := by
  have hmap : ∀ {α : Type} (f : α → α) (as : List α), as.map f = as ↔ ∀ a ∈ as, f a = a := by
    intro α f as
    simpa using (List.map_inj_left (f := f) (g := id) (l := as))
  obtain ⟨stages⟩ := t
  simp [settled, hmap]

/-- Names and labels of a tree that was read are those of its settled form. -/
lemma checkNames_settled {known : String → Bool} {signature signature' : String}
    (h : checkNames known signature t = .ok ()) :
    checkNames known signature' t.settled = .ok () := by
  rw [checkNames_eq_ok_iff] at h ⊢
  have hflatten : t.settled.stages.flatten = t.stages.flatten.map Descriptor.settled := by
    simp [settled, List.map_flatten]
  rw [hflatten]
  simpa only [List.forall_mem_map, Descriptor.settled_label?, Descriptor.settled_name] using h

lemma wellFormed_settled (ht : t.WellFormed) : t.settled.WellFormed where
  size := by simpa [size, settled] using ht.size
  nonempty := by simpa [settled] using ht.nonempty
  returns := by
    obtain ⟨d, hd⟩ := ht.returns
    exact ⟨d.settled, by simp [settled, hd]⟩

/-- The written form of a sound tree. -/
lemma parseForm_text (ht : t.WellFormed) (hs : ∀ s ∈ t.stages, ∀ d ∈ s, d.Sound) :
    parseForm t.text =
      if t.IsCrowded then .error ⟨.crowdedUnit, some t.text⟩ else .ok t.settled := by
  have hreadable : ∀ s ∈ t.settled.stages, ∀ d ∈ s, d.Readable := by
    intro s hmem d hd
    obtain ⟨s', hs', rfl⟩ := List.mem_map.1 hmem
    obtain ⟨d', hd', rfl⟩ := List.mem_map.1 hd
    exact (hs s' hs' d' hd').readable_settled
  have hform := parseForm_of_spells (wellFormed_settled ht) hreadable t.settled.spells_text
  rw [String.ofList_toList, settled_text] at hform
  rw [hform]
  by_cases hcrowded : t.IsCrowded
  · rw [if_pos hcrowded, if_pos (isCrowded_settled_iff.2 hcrowded)]
  · rw [if_neg hcrowded, if_neg fun h => hcrowded (isCrowded_settled_iff.1 h)]

/-- **Reading the written form of a signature that was read**, with the same names known: the
fault of `()` beside other entries if the tree is crowded, and the settled tree otherwise. So the
tree itself comes back exactly when it is not crowded and no optional descriptor has the name `()`
with a label or with arguments, and the settled tree is written the same way. -/
theorem parse_text {known : Option (String → Bool)} {signature : String}
    (h : parse known signature = .ok t) :
    parse known t.text =
        (if t.IsCrowded then .error ⟨.crowdedUnit, some t.text⟩ else .ok t.settled) ∧
      (parse known t.text = .ok t ↔ ¬ t.IsCrowded ∧ ∀ s ∈ t.stages, ∀ d ∈ s,
        d.name = unitName → d.optional = true → d.detail = .plain) ∧
      t.settled.text = t.text := by
  obtain ⟨hform, hnames⟩ := parse_eq_ok_iff.1 h
  obtain ⟨ht, hs⟩ := sound_of_parseForm hform
  have htext := parseForm_text ht hs
  have hparse : parse known t.text =
      if t.IsCrowded then .error ⟨.crowdedUnit, some t.text⟩ else .ok t.settled := by
    by_cases hcrowded : t.IsCrowded
    · rw [if_pos hcrowded] at htext ⊢
      exact parse_eq_error htext
    · rw [if_neg hcrowded] at htext ⊢
      exact parse_eq_ok_iff.2 ⟨htext, fun names hmem => checkNames_settled (hnames names hmem)⟩
  refine ⟨hparse, ?_, settled_text⟩
  rw [hparse]
  by_cases hcrowded : t.IsCrowded
  · simp [hcrowded]
  · rw [if_neg hcrowded, Except.ok.injEq, settled_eq_self_iff]
    simp only [hcrowded, not_false_eq_true, true_and, Descriptor.settled_eq_self_iff]

/-- A pair that reads back, with `()` as the first stage. -/
theorem parse_text_unit :
    let signature := " () => [ list < number > ] "
    let t : Tree := ⟨[[Descriptor.unit], [⟨"list", .arguments ["number"], true⟩]]⟩
    parse none signature = .ok t ∧ parse none t.text = .ok t := by
  intro signature t
  have h : parse none " () => [ list < number > ] " =
      .ok ⟨[[Descriptor.unit], [⟨"list", .arguments ["number"], true⟩]]⟩ := by rfl
  refine ⟨h, (parse_text h).2.1.2 ⟨by decide, ?_⟩⟩
  simp [Descriptor.unit, unitName]

/-- In brackets `()` may stand beside other entries, but it is written without them. -/
theorem not_forall_parse_text :
    ¬ ∀ (known : Option (String → Bool)) (signature : String) (t : Tree),
      parse known signature = .ok t → parse known t.text = .ok t := by
  intro h
  let t : Tree := ⟨[[Descriptor.unit, .ofName "number"], [.ofName "*"]]⟩
  have hread : parse none "[()], number => *" = .ok t := by rfl
  have htext : t.text = "(), number => *" := by rfl
  have hcrowded : parse none "(), number => *" =
      .error ⟨.crowdedUnit, some "(), number => *"⟩ := by rfl
  have hagain := h none _ t hread
  rw [htext, hcrowded] at hagain
  simp at hagain

end Tree

end CallContracts
