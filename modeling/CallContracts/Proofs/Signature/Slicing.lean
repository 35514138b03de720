import CallContracts.Proofs.Signature.Soundness

/-!
Reading commutes with slicing.

* `Signature.restText`: the text of a signature behind its first arrow;
* `Tree.parse_mono`: a signature that reads with some names known reads with more of them known;
* `Tree.parse_rest`: the text behind the first arrow reads as the stages behind the first;
* `Descriptor.parse_typeText`: the written form of a sound descriptor, without the brackets of an
  optional one, reads back as a descriptor of that name, unless the name stands in brackets itself.
-/

namespace CallContracts

open Signature Text

/-- The text of a signature behind its first arrow. -/
def Signature.restText (text : String) : String :=
  match pieces "=>" text.toList with
  | .ok raws => String.ofList (['=', '>'].intercalate (raws.drop 1))
  | .error _ => ""

/-! ### Stages -/

/-- Which signature a stage stands in matters to its faults alone. -/
lemma Tree.parseStage_congr {signature signature' : String} {raw : List Char} {s : Stage}
    (h : Tree.parseStage signature raw = .ok s) : Tree.parseStage signature' raw = .ok s := by
  rw [Tree.parseStage] at h ⊢
  by_cases hblank : trim raw = []
  · simp [hblank] at h
  · simp only [hblank, if_false] at h ⊢
    cases hps : pieces "," (trim raw) with
    | error e => simp [hps, bind, Except.bind] at h
    | ok ps =>
      simp only [hps, bind, Except.bind] at h ⊢
      split at h
      · simp at h
      · next hentry =>
        split at h
        · simp at h
        · next hunit => rw [if_neg hentry, if_neg hunit, h]

/-! ### Signatures -/

namespace Tree

variable {known known' : String → Bool} {text : String} {t : Tree}

/-- A text that splits at its arrows splits behind the first one. -/
lemma pieces_restText {raws : List (List Char)} (h : pieces "=>" text.toList = .ok raws)
    (hlength : 2 ≤ raws.length) :
    pieces "=>" (restText text).toList = .ok (raws.drop 1) := by
  have hsplit : split ['=', '>'] text.toList = .ok raws := split_of_pieces h
  have hpieces := (split_sound isDelimiter_arrow hsplit).1
  rw [restText, h, String.toList_ofList]
  refine pieces_of_split (split_intercalate isDelimiter_arrow ?_ fun p hp => ?_)
  · intro hnil
    have := congrArg List.length hnil
    simp only [List.length_drop, List.length_nil] at this
    omega
  · exact hpieces p (List.mem_of_mem_drop hp)

lemma parseForm_rest (h : parseForm text = .ok t) (hsize : 2 < t.size) :
    parseForm (restText text) = .ok t.remaining := by
  obtain ⟨raws, hraws, -, hread, d, hlast⟩ := parseForm_eq_ok_iff.1 h
  have hlength : 2 < raws.length := by
    rw [hread.length_eq]
    exact hsize
  refine parseForm_eq_ok_iff.2 ⟨raws.drop 1, pieces_restText hraws (by omega), ?_, ?_, d, ?_⟩
  · rw [List.length_drop]
    omega
  · exact List.forall₂_drop 1 (hread.imp fun _ _ => parseStage_congr)
  · rw [remaining, List.getLast?_drop, if_neg, hlast]
    rw [size] at hsize
    omega

/-- A signature that reads with some names known reads with more of them known. -/
lemma parse_mono (hknown : ∀ name, known name = true → known' name = true)
    (h : parse (some known) text = .ok t) : parse (some known') text = .ok t := by
  obtain ⟨hform, hcheck⟩ := parse_eq_ok_iff.1 h
  refine parse_eq_ok_iff.2 ⟨hform, fun names hnames => ?_⟩
  obtain rfl := Option.some.inj hnames
  obtain ⟨hlabels, hall⟩ := checkNames_eq_ok_iff.1 (hcheck known rfl)
  exact checkNames_eq_ok_iff.2 ⟨hlabels, fun d hd => hknown _ (hall d hd)⟩

/-- **The text behind the first arrow** reads as the stages behind the first. -/
lemma parse_rest (h : parse (some known) text = .ok t) (hsize : 2 < t.size) :
    parse (some known) (restText text) = .ok t.remaining := by
  obtain ⟨hform, hcheck⟩ := parse_eq_ok_iff.1 h
  refine parse_eq_ok_iff.2 ⟨parseForm_rest hform hsize, fun names hnames => ?_⟩
  obtain rfl := Option.some.inj hnames
  obtain ⟨hlabels, hall⟩ := checkNames_eq_ok_iff.1 (hcheck known rfl)
  have hmem : ∀ d ∈ t.remaining.stages.flatten, d ∈ t.stages.flatten := by
    intro d hd
    obtain ⟨s, hs, hds⟩ := List.mem_flatten.1 hd
    exact List.mem_flatten.2 ⟨s, List.mem_of_mem_drop hs, hds⟩
  exact checkNames_eq_ok_iff.2
    ⟨fun d hd => hlabels d (hmem d hd), fun d hd => hall d (hmem d hd)⟩

end Tree

/-! ### Return types -/

namespace Descriptor

/-- The descriptor as its written form without brackets shows it. -/
def bare (d : Descriptor) : Descriptor :=
  { d with optional := decide (d.name = unitName ∧ d.detail = .plain) }

variable {d : Descriptor}

lemma bare_text (d : Descriptor) : d.bare.text = d.typeText := by
  rw [text, bare]
  by_cases hname : d.name = unitName
  · simp [hname, typeText]
  · simp [hname, typeText]

lemma Sound.readable_bare (hd : d.Sound) (hlook : ¬ d.LooksBracketed) : d.bare.Readable where
  trimmed := hd.trimmed
  chars := hd.chars
  detail := hd.detail
  named := hd.named
  unbracketed := fun _ => hlook
  unit := fun hplain hname => decide_eq_true ⟨hname, hplain⟩
  shown := fun hoptional _ => (of_decide_eq_true hoptional).2

lemma parse_typeText (hd : d.Sound) (hlook : ¬ d.LooksBracketed) :
    parse d.typeText = .ok d.bare := by
  have h := parse_of_spells (hd.readable_bare hlook) d.bare.spells_text rfl
  rwa [String.ofList_toList, bare_text] at h

/-- The written form of a sound descriptor that is not optional reads back as the descriptor. -/
lemma parse_typeText_of_required (hd : d.Sound) (hrequired : d.optional = false) :
    parse d.typeText = .ok d := by
  have hunit : ¬ (d.name = unitName ∧ d.detail = .plain) := by
    rintro ⟨hname, hplain⟩
    rw [hd.unit hplain hname] at hrequired
    simp at hrequired
  have hbare : d.bare = d := by simp [bare, hunit, ← hrequired]
  rw [parse_typeText hd (hd.unbracketed hrequired), hbare]

end Descriptor

end CallContracts
