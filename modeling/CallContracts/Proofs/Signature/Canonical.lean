import CallContracts.Proofs.Signature.Reading

/-!
Canonical trees, and that printing loses nothing of them.

* `Descriptor.Canonical` and `Tree.Canonical`: names, labels and arguments that no delimiter
  breaks up, with `()` only as the sole entry of a stage;
* `Descriptor.PlainName`: the names that read as themselves;
* `Tree.parse_canonical`: every spelling of a canonical tree reads back as that tree, its written
  form is one of them, and two canonical trees with one written form are equal.
-/

namespace CallContracts

open Signature Text

/-- The parts of a descriptor stand for themselves. A label that is one piece between commas has
no arrow outside of its brackets either, by `isPiece_arrow_iff`. -/
structure Descriptor.Canonical (d : Descriptor) : Prop where
  named : d.name ≠ ""
  trimmed : Trimmed d.name
  chars : ∀ c ∈ d.name.toList, c ∉ ['<', '>', '[', ']', ':', ',']
  ne_unit : d.name ≠ unitName
  detail : d.detail.Sound

/-- Two or more stages of canonical descriptors or of `()` alone, the last with one entry. -/
structure Tree.Canonical (t : Tree) : Prop where
  size : 2 ≤ t.size
  stages : ∀ s ∈ t.stages,
    s = [Descriptor.unit] ∨ s ≠ [] ∧ ∀ d ∈ s, Descriptor.Canonical d
  returns : ∃ d, t.stages.getLast? = some [d]

namespace Descriptor

/-- A name without brackets does not look like an expression in brackets. -/
lemma Canonical.readable {d : Descriptor} (hd : d.Canonical) : d.Readable where
  trimmed := hd.trimmed
  chars := by
    intro c hc
    have := hd.chars c hc
    simp only [List.mem_cons, List.not_mem_nil, or_false, not_or] at this
    exact ⟨this.1, this.2.1, this.2.2.2.2.1, this.2.2.2.2.2⟩
  detail := hd.detail
  named := fun _ => hd.named
  unbracketed := by
    rintro - ⟨hhead, -⟩
    have := hd.chars '[' (List.mem_of_mem_head? hhead)
    simp at this
  unit := fun _ h => absurd h hd.ne_unit
  shown := fun _ h => absurd h hd.ne_unit

end Descriptor

/-- A name that stands for itself wherever a type is expected. -/
structure Descriptor.PlainName (name : String) : Prop where
  trimmed : Trimmed name
  chars : ∀ c ∈ name.toList, c ∉ ['<', '>', '[', ']', ':', ',']
  ne_unit : name ≠ unitName

namespace Descriptor

lemma PlainName.canonical {name : String} (h : PlainName name) (hne : name ≠ "") :
    (ofName name).Canonical where
  named := hne
  trimmed := h.trimmed
  chars := h.chars
  ne_unit := h.ne_unit
  detail := trivial

lemma PlainName.parse_eq {name : String} (h : PlainName name) (hne : name ≠ "") :
    parse name = .ok (ofName name) := by
  have hparse := parse_of_spells (h.canonical hne).readable (ofName name).spells_text rfl
  simpa [text, typeText, ofName] using hparse

end Descriptor

namespace Tree

variable {t : Tree}

lemma Canonical.wellFormed (ht : t.Canonical) : t.WellFormed where
  size := ht.size
  nonempty := by
    intro s hs
    rcases ht.stages s hs with rfl | ⟨hne, -⟩
    · simp
    · exact hne
  returns := ht.returns

lemma Canonical.readable (ht : t.Canonical) : ∀ s ∈ t.stages, ∀ d ∈ s, d.Readable := by
  intro s hs d hd
  rcases ht.stages s hs with rfl | ⟨-, hall⟩
  · obtain rfl := List.mem_singleton.1 hd
    exact Descriptor.readable_unit
  · exact (hall d hd).readable

/-- The empty parameter list stands alone in a canonical tree. -/
lemma Canonical.not_isCrowded (ht : t.Canonical) : ¬ t.IsCrowded := by
  rintro ⟨s, hs, hunit, hlength⟩
  rcases ht.stages s hs with rfl | ⟨-, hall⟩
  · simp at hlength
  · exact (hall _ hunit).ne_unit rfl

lemma Canonical.parse_of_spells (ht : t.Canonical) {cs : List Char} (h : t.Spells cs) :
    parse none (String.ofList cs) = .ok t := by
  have hform := parseForm_of_spells ht.wellFormed ht.readable h
  rw [if_neg ht.not_isCrowded] at hform
  rw [parse, hform]
  rfl

lemma Canonical.parse_written (ht : t.Canonical) : parse none t.text = .ok t := by
  simpa using ht.parse_of_spells t.spells_text

/-- **Reading undoes writing**, whatever the blanks: every spelling of a canonical tree reads back
as that tree, in particular its written form, and so no other canonical tree is written that
way. -/
theorem parse_canonical (ht : t.Canonical) :
    (∀ cs, t.Spells cs → parse none (String.ofList cs) = .ok t) ∧
      parse none t.text = .ok t ∧ ∀ u : Tree, u.Canonical → u.text = t.text → u = t := by
  refine ⟨fun cs h => ht.parse_of_spells h, ht.parse_written, fun u hu htext => ?_⟩
  have hparse := hu.parse_written
  rw [htext, ht.parse_written] at hparse
  exact (Except.ok.inj hparse).symm

/-- Two stages with blanks at every kind of delimiter. -/
theorem parse_padded_tuple :
    let t : Tree := ⟨[[⟨"number", .plain, true⟩, ⟨"object", .label "point", false⟩],
      [⟨"tuple", .arguments ["number", "list<string;any>"], false⟩]]⟩
    let cs := " [ number ] ,object : point =>tuple <number; list<string;any> > ".toList
    t.Canonical ∧ t.Spells cs ∧ parse none (String.ofList cs) = .ok t := by
  intro t cs
  have ht : t.Canonical := by
    refine ⟨by decide, ?_, ⟨_, rfl⟩⟩
    simp only [t, List.mem_cons, List.not_mem_nil, or_false, forall_eq_or_imp, forall_eq]
    refine ⟨Or.inr ⟨by simp, ?_, ?_⟩, Or.inr ⟨by simp, ?_⟩⟩
    · exact ⟨by decide, by decide, by simp, by decide, trivial⟩
    · exact ⟨by decide, by decide, by simp, by decide, by decide, by decide⟩
    · refine ⟨by decide, by decide, by simp, by decide, by simp, ?_⟩
      simp only [List.mem_cons, List.not_mem_nil, or_false, forall_eq_or_imp, forall_eq]
      exact ⟨⟨by decide, by decide⟩, by decide, by decide⟩
  have hnumber : Descriptor.Spells ⟨"number", .plain, true⟩ " [ number ] ".toList :=
    .bracketed rfl (.plain (Padded.refl _)) ⟨[' '], [' '], by decide, by decide, rfl⟩
      ⟨[' '], [' '], by decide, by decide, rfl⟩
  have hobject : Descriptor.Spells ⟨"object", .label "point", false⟩ "object : point ".toList :=
    .bare rfl (.label ⟨[], [' '], by decide, by decide, rfl⟩
      ⟨[' '], [' '], by decide, by decide, rfl⟩) (Padded.refl _)
  have htuple : Descriptor.Spells ⟨"tuple", .arguments ["number", "list<string;any>"], false⟩
      "tuple <number; list<string;any> > ".toList :=
    .bare rfl (@Detail.Spells.arguments _ _ _ [_, _] ⟨[], [' '], by decide, by decide, rfl⟩
      (.cons (Padded.refl _) (.cons ⟨[' '], [' '], by decide, by decide, rfl⟩ .nil)))
      ⟨[], [' '], by decide, by decide, rfl⟩
  have hspells : t.Spells cs := by
    refine ⟨[_, _], .cons ⟨_, ⟨[_, _], .cons hnumber (.cons hobject .nil), rfl⟩, Padded.refl _⟩
      (.cons ⟨_, ⟨[_], .cons htuple .nil, rfl⟩, Padded.refl _⟩ .nil), rfl⟩
  exact ⟨ht, hspells, (parse_canonical ht).1 cs hspells⟩

end Tree

end CallContracts
