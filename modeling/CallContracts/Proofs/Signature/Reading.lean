import CallContracts.Proofs.Signature.Spelling

/-!
Reading back a signature, stage by stage.

* `parseStage_of_spells`: a spelled stage reads back, unless `()` stands beside other entries;
* `parseForm_of_spells`: a spelled signature reads back when its stages do;
* `Tree.spells_text`: the written form of a tree is one of its spellings.
-/

namespace CallContracts

open Signature Text

/-! ### Lists of results -/

section results

variable {ε α β : Type} {f : α → Except ε β} {as : List α}

lemma mapM_eq_ok_iff {bs : List β} :
    as.mapM f = .ok bs ↔ List.Forall₂ (fun a b => f a = .ok b) as bs := by
  induction as generalizing bs with
  | nil => simp [pure, Except.pure, eq_comm]
  | cons a as ih =>
    rw [List.mapM_cons]
    constructor
    · intro h
      cases ha : f a with
      | error e => simp [ha, bind, Except.bind] at h
      | ok b =>
        cases has : as.mapM f with
        | error e => simp [ha, has, bind, Except.bind] at h
        | ok cs =>
          have hbs : b :: cs = bs := by
            simpa [ha, has, bind, Except.bind, pure, Except.pure] using h
          rw [← hbs]
          exact .cons ha (ih.1 has)
    · rintro (_ | ⟨ha, has⟩)
      simp [ha, ih.2 has, bind, Except.bind, pure, Except.pure]

/-- One failure among results is the failure of all. -/
lemma mapM_eq_error {e : ε} (h : ∀ a ∈ as, (∃ b, f a = .ok b) ∨ f a = .error e)
    (he : ∃ a ∈ as, f a = .error e) : as.mapM f = .error e := by
  induction as with
  | nil => simp at he
  | cons a as ih =>
    rw [List.mapM_cons]
    rcases h a (by simp) with ⟨b, ha⟩ | ha
    · have has : as.mapM f = .error e := by
        refine ih (fun x hx => h x (by simp [hx])) ?_
        obtain ⟨x, hx, hxe⟩ := he
        rcases List.mem_cons.1 hx with rfl | hx
        · rw [ha] at hxe
          simp at hxe
        · exact ⟨x, hx, hxe⟩
      simp [ha, has, bind, Except.bind]
    · simp [ha, bind, Except.bind]

end results

/-! ### Stages -/

namespace Stage

/-- The empty parameter list stands beside other entries. -/
def IsCrowded (s : Stage) : Prop := Descriptor.unit ∈ s ∧ 1 < s.length

instance (s : Stage) : Decidable s.IsCrowded := inferInstanceAs (Decidable (_ ∧ _))

variable {s : Stage} {e r : List Char}

/-- The brackets of a spelled stage pair up. -/
lemma isBalanced_of_spells (hs : ∀ d ∈ s, d.Sound) (h : s.Spells e) : IsBalanced e := by
  obtain ⟨ps, hps, rfl⟩ := h
  refine balanced_intercalate (by decide) fun p hp => ?_
  obtain ⟨d, hd, hdp⟩ := exists_left_of_mem hps hp
  exact ((hs d hd).isPiece_comma hdp).balanced

/-- The trimmed tokens of a spelled stage. -/
lemma exists_tokens (hne : s ≠ []) (hs : ∀ d ∈ s, d.Sound) (h : s.Spells e)
    (hr : Padded e r) : ∃ ps qs, List.Forall₂ Descriptor.Spells s ps ∧
      pieces "," (trim r) = .ok qs ∧ qs.map trim = ps.map trim := by
  obtain ⟨ps, hps, rfl⟩ := h
  have hps' : ps ≠ [] := by
    rintro rfl
    cases hps
    exact hne rfl
  have hsplit : split [','] ([','].intercalate ps) = .ok ps := by
    refine split_intercalate isDelimiter_comma hps' fun p hp => ?_
    obtain ⟨d, hd, hdp⟩ := exists_left_of_mem hps hp
    exact (hs d hd).isPiece_comma hdp
  obtain ⟨qs, hqs, hmap⟩ := split_trim isDelimiter_comma hsplit
  rw [← Text.trim_padded hr] at hqs
  exact ⟨ps, qs, hps, pieces_of_split hqs, hmap⟩

/-- The tokens are not blank, and one of them is `()` when a descriptor is. -/
lemma mem_tokens {ps : List (List Char)} (hs : ∀ d ∈ s, d.Readable)
    (h : List.Forall₂ Descriptor.Spells s ps) :
    [] ∉ ps.map trim ∧ (unitName.toList ∈ ps.map trim ↔ Descriptor.unit ∈ s) := by
  refine ⟨fun hnil => ?_, fun hunit => ?_, fun hunit => ?_⟩
  · obtain ⟨p, hp, hblank⟩ := List.mem_map.1 hnil
    obtain ⟨d, hd, hdp⟩ := exists_left_of_mem h hp
    exact (hs d hd).toSound.trim_ne_nil hdp hblank
  · obtain ⟨p, hp, hname⟩ := List.mem_map.1 hunit
    obtain ⟨d, hd, hdp⟩ := exists_left_of_mem h hp
    rwa [← ((hs d hd).trim_eq_unit_iff hdp).1 hname]
  · obtain ⟨p, hp, hdp⟩ := exists_right_of_mem h hunit
    exact List.mem_map.2 ⟨p, hp, ((hs _ hunit).trim_eq_unit_iff hdp).2 rfl⟩

/-- The tokens read back, one by one. -/
lemma mapM_tokens {ps : List (List Char)} (hs : ∀ d ∈ s, d.Readable)
    (h : List.Forall₂ Descriptor.Spells s ps) :
    ((ps.map trim).mapM fun token => Descriptor.parse (String.ofList token)) = .ok s := by
  rw [mapM_eq_ok_iff]
  induction h with
  | nil => exact .nil
  | cons hp _ ih =>
    have hparse := Descriptor.parse_of_spells (hs _ (by simp)) hp (trim_trim _)
    exact .cons hparse (ih fun d hd => hs d (by simp [hd]))

end Stage

/-- **A spelled stage reads back**, unless `()` stands beside other entries. -/
lemma parseStage_of_spells (signature : String) {s : Stage} {e r : List Char} (hne : s ≠ [])
    (hs : ∀ d ∈ s, d.Readable) (h : s.Spells e) (hr : Padded e r) :
    Tree.parseStage signature r =
      if s.IsCrowded then .error ⟨.crowdedUnit, some signature⟩ else .ok s := by
  have hsound : ∀ d ∈ s, d.Sound := fun d hd => (hs d hd).toSound
  obtain ⟨ps, qs, hps, hpieces, hqs⟩ := Stage.exists_tokens hne hsound h hr
  obtain ⟨hblank, hunit⟩ := Stage.mem_tokens hs hps
  have hlength : (ps.map trim).length = s.length := by simp [hps.length_eq]
  have hnil : trim r ≠ [] := by
    intro hnil
    rw [hnil] at hpieces
    have hqs' : qs = [[]] := (Except.ok.inj hpieces).symm
    rw [hqs'] at hqs
    exact hblank (by rw [← hqs]; exact List.mem_singleton.2 rfl)
  rw [Tree.parseStage]
  simp only [hnil, if_false, hpieces, bind, Except.bind]
  rw [hqs, if_neg hblank, hlength, Stage.mapM_tokens hs hps]
  by_cases hcrowded : s.IsCrowded
  · rw [if_pos hcrowded, if_pos ⟨hunit.2 hcrowded.1, hcrowded.2⟩]
  · rw [if_neg hcrowded, if_neg fun h => hcrowded ⟨hunit.1 h.1, h.2⟩]

/-! ### Signatures -/

namespace Tree

/-- Stages that a signature can have: two or more, none of them empty, and one return type. -/
structure WellFormed (t : Tree) : Prop where
  size : 2 ≤ t.size
  nonempty : ∀ s ∈ t.stages, s ≠ []
  returns : ∃ d, t.stages.getLast? = some [d]

/-- The empty parameter list stands beside other entries of some stage. -/
def IsCrowded (t : Tree) : Prop := ∃ s ∈ t.stages, Stage.IsCrowded s

instance (t : Tree) : Decidable t.IsCrowded := List.decidableBEx _ t.stages

variable {t : Tree} {cs : List Char}

/-- A spelled signature splits into its spelled stages. -/
lemma exists_raws (ht : t.WellFormed) (hs : ∀ s ∈ t.stages, ∀ d ∈ s, d.Sound)
    (h : t.Spells cs) : ∃ rs, pieces "=>" cs = .ok rs ∧
      List.Forall₂ (fun s r => ∃ e, Stage.Spells s e ∧ Padded e r) t.stages rs := by
  obtain ⟨rs, hrs, rfl⟩ := h
  refine ⟨rs, pieces_of_split (split_intercalate isDelimiter_arrow ?_ fun r hr => ?_), hrs⟩
  · rintro rfl
    have hsize := ht.size
    simp [size, hrs.length_eq] at hsize
  · obtain ⟨s, hmem, e, he, her⟩ := exists_left_of_mem hrs hr
    have he' := isPiece_arrow_iff.2 (Stage.isBalanced_of_spells (hs s hmem) he)
    exact he'.padded isDelimiter_arrow her

end Tree

/-- **A spelled signature reads back**, unless `()` stands beside other entries. -/
lemma parseForm_of_spells {t : Tree} {cs : List Char} (ht : t.WellFormed)
    (hs : ∀ s ∈ t.stages, ∀ d ∈ s, d.Readable) (h : t.Spells cs) :
    Tree.parseForm (String.ofList cs) =
      if t.IsCrowded then .error ⟨.crowdedUnit, some (String.ofList cs)⟩ else .ok t := by
  obtain ⟨rs, hpieces, hrs⟩ :=
    Tree.exists_raws ht (fun s hmem d hd => (hs s hmem d hd).toSound) h
  have hlength : ¬ rs.length < 2 := by
    have hsize := ht.size
    rw [Tree.size, hrs.length_eq] at hsize
    omega
  have hstage : ∀ s r, s ∈ t.stages → (∃ e, Stage.Spells s e ∧ Padded e r) →
      Tree.parseStage (String.ofList cs) r =
        if s.IsCrowded then .error ⟨.crowdedUnit, some (String.ofList cs)⟩ else .ok s := by
    rintro s r hmem ⟨e, he, her⟩
    exact parseStage_of_spells _ (ht.nonempty s hmem) (hs s hmem) he her
  rw [Tree.parseForm]
  simp only [String.toList_ofList, hpieces, bind, Except.bind, hlength, if_false]
  by_cases hcrowded : t.IsCrowded
  · rw [if_pos hcrowded]
    have hmap : rs.mapM (Tree.parseStage (String.ofList cs)) =
        .error ⟨.crowdedUnit, some (String.ofList cs)⟩ := by
      refine mapM_eq_error (fun r hr => ?_) ?_
      · obtain ⟨s, hmem, hsr⟩ := exists_left_of_mem hrs hr
        rw [hstage s r hmem hsr]
        split
        · exact Or.inr rfl
        · exact Or.inl ⟨s, rfl⟩
      · obtain ⟨s, hmem, hc⟩ := hcrowded
        obtain ⟨r, hr, hsr⟩ := exists_right_of_mem hrs hmem
        exact ⟨r, hr, by rw [hstage s r hmem hsr, if_pos hc]⟩
    rw [hmap]
  · rw [if_neg hcrowded]
    have hmap : rs.mapM (Tree.parseStage (String.ofList cs)) = .ok t.stages := by
      rw [mapM_eq_ok_iff]
      have hboth := (List.forall₂_and_left (p := (· ∈ t.stages)) _ _).2 ⟨fun _ h => h, hrs⟩
      refine (hboth.imp fun s r hsr => ?_).flip
      have hc : ¬ s.IsCrowded := fun hc => hcrowded ⟨s, hsr.1, hc⟩
      simpa [flip, hc] using hstage s r hsr.1 hsr.2
    obtain ⟨d, hd⟩ := ht.returns
    simp only [hmap, hd]
    rfl

/-! ### Written forms -/

/-- Blanks around a delimiter go to the pieces beside it. -/
lemma exists_joined {l d r : List Char} (hl : Blank l) (hr : Blank r) (ps : List (List Char)) :
    ∃ qs, List.Forall₂ Padded ps qs ∧ (l ++ d ++ r).intercalate ps = d.intercalate qs := by
  induction ps with
  | nil => exact ⟨[], .nil, by simp⟩
  | cons p ps ih =>
    rcases ps with _ | ⟨p', ps⟩
    · exact ⟨[p], padded_lists_refl _, by simp⟩
    · obtain ⟨qs, hqs, hjoin⟩ := ih
      rcases qs with _ | ⟨q, qs⟩
      · cases hqs
      · obtain ⟨hq, hqs⟩ := List.forall₂_cons.1 hqs
        have hp : Padded p (p ++ l) := ⟨[], l, blank_nil, hl, by simp⟩
        have hr : Padded q (r ++ q) := ⟨r, [], hr, blank_nil, by simp⟩
        refine ⟨(p ++ l) :: (r ++ q) :: qs, .cons hp (.cons (hq.trans hr) hqs), ?_⟩
        rw [List.intercalate_cons_cons, hjoin, List.intercalate_cons_cons]
        cases qs <;> simp [List.intercalate_cons_cons]

namespace Descriptor

variable {d : Descriptor}

lemma Spells.padded {p q : List Char} (h : d.Spells p) (hq : Padded p q) : d.Spells q := by
  cases h with
  | bare hbare he hp => exact .bare hbare he (hp.trans hq)
  | bracketed hbr he hi hp => exact .bracketed hbr he hi (hp.trans hq)

lemma spells_typeText (d : Descriptor) : d.detail.Spells d.name d.typeText.toList := by
  obtain ⟨name, k, b⟩ := d
  cases k with
  | plain => exact .plain (Padded.refl _)
  | label text =>
    have h := Detail.Spells.label (Padded.refl name.toList) (Padded.refl text.toList)
    simpa [typeText] using h
  | arguments types =>
    have hps : List.Forall₂ (fun t p => Padded t.toList p) types (types.map String.toList) :=
      List.forall₂_map_right_iff.2 (List.forall₂_same.2 fun t _ => Padded.refl _)
    have h := Detail.Spells.arguments (Padded.refl name.toList) hps
    simpa [typeText, String.toList_intercalate] using h

lemma spells_text (d : Descriptor) : d.Spells d.text.toList := by
  have h := d.spells_typeText
  rw [text]
  by_cases hbr : d.isBracketed
  · have htext : ("[" ++ d.typeText ++ "]").toList = '[' :: (d.typeText.toList ++ [']']) := by
      simp
    rw [show (d.optional && d.name != unitName) = true from hbr, if_pos rfl, htext]
    exact .bracketed hbr h (Padded.refl _) (Padded.refl _)
  · have hbr : d.isBracketed = false := by simpa using hbr
    rw [show (d.optional && d.name != unitName) = false from hbr]
    exact .bare hbr h (Padded.refl _)

end Descriptor

lemma Stage.spells_text (s : Stage) : s.Spells s.text.toList := by
  have hcomma : ", ".toList = [] ++ [','] ++ [' '] := by decide
  obtain ⟨qs, hqs, hjoin⟩ := exists_joined (d := [',']) blank_nil (r := [' '])
    (by decide) (s.map fun d => d.text.toList)
  refine ⟨qs, ?_, ?_⟩
  · rw [List.forall₂_map_left_iff] at hqs
    exact hqs.imp fun d q hq => d.spells_text.padded hq
  · rw [text, String.toList_intercalate, hcomma, List.map_map]
    exact hjoin

/-- The written form of a tree is one of its spellings. -/
lemma Tree.spells_text (t : Tree) : t.Spells t.text.toList := by
  have harrow : " => ".toList = [' '] ++ ['=', '>'] ++ [' '] := by decide
  have hblank : Blank [' '] := by decide
  obtain ⟨qs, hqs, hjoin⟩ := exists_joined (d := ['=', '>']) hblank hblank
    (t.stages.map fun s => s.text.toList)
  refine ⟨qs, ?_, ?_⟩
  · rw [List.forall₂_map_left_iff] at hqs
    exact hqs.imp fun s q hq => ⟨_, Stage.spells_text s, hq⟩
  · rw [text, String.toList_intercalate, harrow, List.map_map]
    exact hjoin

end CallContracts
