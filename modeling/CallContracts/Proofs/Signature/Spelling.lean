import Mathlib.Tactic
import CallContracts.Proofs.Signature.Splitting
import CallContracts.Signature.Parser

/-!
The spellings of a signature tree, and reading them back.

A tree can be written in many ways, since blanks may stand around every delimiter.

* `Detail.Spells`, `Descriptor.Spells`, `Stage.Spells` and `Tree.Spells` say which texts write an
  expression, a token, a stage and a whole signature;
* `Descriptor.Sound` is what every descriptor that was read satisfies, and `Descriptor.Readable`
  what makes its spellings read back;
* `Descriptor.parse_of_spells`: a spelling of a readable descriptor reads back;
* `Descriptor.Sound.isPiece_comma`: no comma in a spelled token ends it.
-/

namespace CallContracts

open Signature Text

/-! ### Spellings -/

/-- The texts of an expression without brackets: blanks may stand around the name, the label and
each argument. -/
inductive Detail.Spells (name : String) : Detail → List Char → Prop
  | plain {cs : List Char} : Padded name.toList cs → Spells name .plain cs
  | label {text : String} {a b : List Char} :
    Padded name.toList a → Padded text.toList b → Spells name (.label text) (a ++ ':' :: b)
  | arguments {types : List String} {a : List Char} {ps : List (List Char)} :
    Padded name.toList a → List.Forall₂ (fun t p => Padded t.toList p) types ps →
      Spells name (.arguments types) (a ++ '<' :: ([';'].intercalate ps ++ ['>']))

namespace Descriptor

/-- An optional descriptor other than `()` is written in brackets. -/
def isBracketed (d : Descriptor) : Bool := d.optional && d.name != unitName

/-- The texts of a token: blanks may stand inside and outside of the brackets. -/
inductive Spells : Descriptor → List Char → Prop
  | bare {d : Descriptor} {e cs : List Char} :
    d.isBracketed = false → d.detail.Spells d.name e → Padded e cs → Spells d cs
  | bracketed {d : Descriptor} {e i cs : List Char} :
    d.isBracketed = true → d.detail.Spells d.name e → Padded e i →
      Padded ('[' :: (i ++ [']'])) cs → Spells d cs

end Descriptor

/-- The texts of a stage: tokens with commas between them. -/
def Stage.Spells (s : Stage) (cs : List Char) : Prop :=
  ∃ ps, List.Forall₂ Descriptor.Spells s ps ∧ cs = [','].intercalate ps

/-- The texts of a signature: stages with arrows between them. -/
def Tree.Spells (t : Tree) (cs : List Char) : Prop :=
  ∃ rs, List.Forall₂ (fun s r => ∃ e, Stage.Spells s e ∧ Padded e r) t.stages rs ∧
    cs = ['=', '>'].intercalate rs

/-! ### What can be read back -/

/-- No blank stands at an end of a text. -/
def Trimmed (s : String) : Prop := trim s.toList = s.toList

instance (s : String) : Decidable (Trimmed s) := inferInstanceAs (Decidable (_ = _))

/-- Labels and arguments that their delimiters leave whole. -/
def Detail.Sound : Detail → Prop
  | .plain => True
  | .label text => Trimmed text ∧ IsPiece [','] text.toList
  | .arguments types => types ≠ [] ∧ ∀ t ∈ types, Trimmed t ∧ IsPiece [';'] t.toList

namespace Descriptor

/-- An expression that looks like one in brackets. -/
def LooksBracketed (d : Descriptor) : Prop :=
  d.name.toList.head? = some '[' ∧
    match d.detail with
    | .plain => d.name.toList.tail.getLast? = some ']'
    | .label text => text.toList.getLast? = some ']'
    | .arguments _ => False

/-- What every descriptor that was read satisfies. -/
structure Sound (d : Descriptor) : Prop where
  trimmed : Trimmed d.name
  chars : ∀ c ∈ d.name.toList, c ≠ '<' ∧ c ≠ '>' ∧ c ≠ ':' ∧ c ≠ ','
  detail : d.detail.Sound
  named : d.detail = .plain → d.name ≠ ""
  unbracketed : d.optional = false → ¬ d.LooksBracketed
  unit : d.detail = .plain → d.name = unitName → d.optional = true

/-- A sound descriptor whose written form shows that it is optional. -/
structure Readable (d : Descriptor) : Prop extends Sound d where
  shown : d.optional = true → d.name = unitName → d.detail = .plain

lemma readable_unit : unit.Readable where
  trimmed := by decide
  chars := by simp [unit, unitName]
  detail := trivial
  named := fun _ => by decide
  unbracketed := fun h => by simp [unit] at h
  unit := fun _ _ => rfl
  shown := fun _ _ => rfl

end Descriptor

/-! ### Expressions -/

lemma pieces_of_split {delimiter : String} {cs : List Char} {ps : List (List Char)}
    (h : split delimiter.toList cs = .ok ps) : pieces delimiter cs = .ok ps := by
  rw [pieces, h]

lemma split_of_pieces {delimiter : String} {cs : List Char} {ps : List (List Char)}
    (h : pieces delimiter cs = .ok ps) : split delimiter.toList cs = .ok ps := by
  rw [pieces] at h
  split at h
  · next hs => rw [hs, Except.ok.inj h]
  all_goals simp at h

lemma isBlank_ne {c e : Char} (hc : isBlank c = true) (he : isBlank e = false) : c ≠ e := by
  rintro rfl
  rw [hc] at he
  exact absurd he (by simp)

lemma mem_padded {core cs : List Char} (h : Padded core cs) {c : Char} (hc : c ∈ cs) :
    c ∈ core ∨ isBlank c = true := by
  obtain ⟨l, r, hl, hr, rfl⟩ := h
  simp only [List.mem_append] at hc
  rcases hc with (hc | hc) | hc
  · exact Or.inr (hl c hc)
  · exact Or.inl hc
  · exact Or.inr (hr c hc)

namespace Descriptor

variable {d : Descriptor}

/-- In front of the label or of the arguments stands nothing that could begin them. -/
lemma Sound.isNameChar (hd : d.Sound) {a : List Char} (ha : Padded d.name.toList a) :
    ∀ c ∈ trimLeft a, isNameChar c = true := by
  intro c hc
  have hca : c ∈ a := List.dropWhile_subset _ hc
  rcases mem_padded ha hca with h | h
  · obtain ⟨h₁, -, h₂, -⟩ := hd.chars c h
    simp [Descriptor.isNameChar, h₁, h₂]
  · have h₁ : c ≠ '<' := isBlank_ne h (by decide)
    have h₂ : c ≠ ':' := isBlank_ne h (by decide)
    simp [Descriptor.isNameChar, h₁, h₂]

lemma Sound.trim_name (hd : d.Sound) {a : List Char} (ha : Padded d.name.toList a) :
    trim a = d.name.toList := by
  rw [trim_padded ha, hd.trimmed]

/-- The trimmed form of an expression. -/
lemma trim_label {a b : List Char} : trim (a ++ ':' :: b) = trimLeft a ++ ':' :: trimRight b :=
  trim_around (by decide) a b

lemma trim_arguments {a b : List Char} :
    trim (a ++ '<' :: (b ++ ['>'])) = trimLeft a ++ '<' :: (b ++ ['>']) := by
  rw [trim_around (by decide) a (b ++ ['>']), trimRight_concat (by decide)]

lemma Trimmed.trim_padded {s : String} (hs : Trimmed s) {cs : List Char}
    (h : Padded s.toList cs) : String.ofList (trim cs) = s := by
  rw [Text.trim_padded h, hs, String.ofList_toList]

/-- The arguments of a type are the pieces between its brackets. -/
lemma splitArguments_of_padded {types : List String} {ps : List (List Char)}
    (hs : (Detail.arguments types).Sound)
    (h : List.Forall₂ (fun t p => Padded t.toList p) types ps) :
    splitArguments ([';'].intercalate ps) = .ok types := by
  have hne : ps ≠ [] := by
    rintro rfl
    cases h
    exact hs.1 rfl
  have hps : ∀ p ∈ ps, IsPiece [';'] p := by
    intro p hp
    obtain ⟨t, ht, htp⟩ := exists_left_of_mem h hp
    exact (hs.2 t ht).2.padded isDelimiter_semicolon htp
  have hmap : ps.map (fun part => String.ofList (trim part)) = types := by
    replace hs := hs.2
    clear hne hps
    induction h with
    | nil => rfl
    | cons htp _ ih =>
      rw [List.map_cons, ih fun t ht => hs t (by simp [ht]),
        Trimmed.trim_padded (hs _ (by simp)).1 htp]
  have hpieces : pieces ";" ([';'].intercalate ps) = .ok ps :=
    pieces_of_split (split_intercalate isDelimiter_semicolon hne hps)
  rw [splitArguments, hpieces]
  simp [Functor.map, Except.map, hmap]

/-- A spelled expression reads back. -/
lemma parseExpression_of_spells (hd : d.Sound) {e : List Char} (h : d.detail.Spells d.name e)
    (token : String) (optional : Bool) :
    parseExpression token optional (trim e) = .ok ⟨d.name, d.detail, optional⟩ := by
  have hdetail := hd.detail
  obtain ⟨name, k, b⟩ := d
  cases h with
  | plain ha =>
    have hname := hd.trim_name ha
    have hall : ∀ c ∈ trim e, isNameChar c = true := by
      rw [hname, ← hd.trimmed]
      exact fun c hc => hd.isNameChar (Padded.refl _) c
        (List.mem_reverse.1 (List.dropWhile_subset _ (List.mem_reverse.1 hc)))
    have hdrop : (trim e).dropWhile isNameChar = [] := List.dropWhile_eq_nil_iff.2 hall
    rw [parseExpression]
    rw [hdrop, hname]
    simp
  | @label text a b ha hb =>
    have hall := hd.isNameChar ha
    rw [parseExpression]
    rw [trim_label, List.takeWhile_append_of_pos hall, List.dropWhile_append_of_pos hall]
    have hcolon : isNameChar ':' = false := by decide
    rw [List.takeWhile_cons_of_neg (by simp [hcolon]),
      List.dropWhile_cons_of_neg (by simp [hcolon]), List.append_nil, trim_trimLeft,
      Trimmed.trim_padded hd.trimmed ha]
    simp only [if_false, Char.reduceEq]
    rw [trim_trimRight, Trimmed.trim_padded hdetail.1 hb]
  | @arguments types a ps ha hps =>
    have hall := hd.isNameChar ha
    rw [parseExpression]
    rw [trim_arguments, List.takeWhile_append_of_pos hall, List.dropWhile_append_of_pos hall]
    have hopen : isNameChar '<' = false := by decide
    rw [List.takeWhile_cons_of_neg (by simp [hopen]), List.dropWhile_cons_of_neg (by simp [hopen]),
      List.append_nil, trim_trimLeft, Trimmed.trim_padded hd.trimmed ha]
    simp [splitArguments_of_padded hdetail hps, bind, Except.bind, pure, Except.pure]

/-! ### Tokens -/

lemma Sound.spells_ne_nil (hd : d.Sound) {e : List Char} (h : d.detail.Spells d.name e) :
    trim e ≠ [] := by
  have hname := hd.named
  obtain ⟨name, k, b⟩ := d
  cases h with
  | plain ha =>
    rw [hd.trim_name ha]
    exact fun hnil => hname rfl (by simpa using hnil)
  | label _ _ => simp [trim_label]
  | arguments _ _ => simp [trim_arguments]

/-- The first character of a text is that of its trimmed form. -/
lemma head_trim {c : Char} {a cs : List Char} (h : trimLeft a = c :: cs) :
    (trim a).head? = some c := by
  have hhead : (trimLeft a).head? = some c := by rw [h]; rfl
  have hc : isBlank c = false := head_trimLeft hhead
  rw [← trim_trimLeft a, h]
  have := trim_around hc [] cs
  rw [List.nil_append] at this
  simp [this, trimLeft]

/-- The last character of a text is that of its trimmed form. -/
lemma last_trim {c : Char} (hc : isBlank c = false) {b : List Char}
    (h : (trimRight b).getLast? = some c) : (trim b).getLast? = some c := by
  obtain ⟨ys, hys⟩ := List.getLast?_eq_some_iff.1 h
  rw [← trim_trimRight b, hys]
  have := trim_around hc ys []
  simp [this, trimRight]

/-- What stands in the brackets of an optional token. -/
lemma exists_of_unbracket? {cs inner : List Char} (h : unbracket? cs = some inner) :
    ∃ i, cs = '[' :: (i ++ [']']) ∧ inner = trim i := by
  simp only [unbracket?] at h
  split at h
  · next cs =>
    split at h
    · next hlast =>
      obtain ⟨i, rfl⟩ := List.getLast?_eq_some_iff.1 hlast
      exact ⟨i, rfl, by simpa using h.symm⟩
    · simp at h
  · simp at h

/-- An expression that does not look bracketed is not taken for one. -/
lemma Sound.unbracket?_eq_none (hd : d.Sound) (hlook : ¬ d.LooksBracketed) {e : List Char}
    (h : d.detail.Spells d.name e) : unbracket? (trim e) = none := by
  have hsound := hd.detail
  by_contra hsome
  -- the trimmed form stands in brackets
  obtain ⟨inner, hinner⟩ := Option.ne_none_iff_exists'.1 hsome
  obtain ⟨i, hcs, -⟩ := exists_of_unbracket? hinner
  have hlast : (i ++ [']']).getLast? = some ']' := by simp
  generalize i ++ [']'] = cs at hcs hlast
  obtain ⟨name, k, b⟩ := d
  cases h with
  | plain ha =>
    rw [hd.trim_name ha] at hcs
    exact hlook ⟨by rw [hcs]; rfl, by simpa [hcs] using hlast⟩
  | @label text a b ha hb =>
    rw [trim_label] at hcs
    rcases hleft : trimLeft a with _ | ⟨c, as⟩
    · rw [hleft] at hcs
      simp at hcs
    · rw [hleft, List.cons_append, List.cons.injEq] at hcs
      obtain ⟨rfl, rfl⟩ := hcs
      have hhead := head_trim hleft
      rw [hd.trim_name ha] at hhead
      refine hlook ⟨hhead, ?_⟩
      have hb' : trim b = text.toList := by rw [Text.trim_padded hb, hsound.1]
      show text.toList.getLast? = some ']'
      rw [← hb']
      refine last_trim (by decide) ?_
      rcases hright : trimRight b with _ | ⟨x, xs⟩
      · rw [hright] at hlast
        simp at hlast
      · rw [hright] at hlast
        simpa [List.getLast?_append] using hlast
  | @arguments types a ps ha hps =>
    rw [trim_arguments] at hcs
    rcases hleft : trimLeft a with _ | ⟨c, as⟩
    · rw [hleft] at hcs
      simp at hcs
    · rw [hleft, List.cons_append, List.cons.injEq] at hcs
      obtain ⟨-, rfl⟩ := hcs
      simp [List.getLast?_append, List.getLast?_cons] at hlast

lemma Sound.trim_ne_unit (hd : d.Sound) (hunit : ¬ (d.detail = .plain ∧ d.name = unitName))
    {e : List Char} (h : d.detail.Spells d.name e) : trim e ≠ unitName.toList := by
  have hunitName : unitName.toList = ['(', ')'] := by decide
  obtain ⟨name, k, b⟩ := d
  cases h with
  | plain ha =>
    rw [hd.trim_name ha]
    exact fun heq => hunit ⟨rfl, String.toList_inj.1 heq⟩
  | label _ _ =>
    rw [trim_label, hunitName]
    intro heq
    have : ':' ∈ ['(', ')'] := by rw [← heq]; simp
    simp at this
  | arguments _ _ =>
    rw [trim_arguments, hunitName]
    intro heq
    have : '<' ∈ ['(', ')'] := by rw [← heq]; simp
    simp at this

/-- Blanks outside of the brackets go, those inside stay. -/
lemma trim_bracketed {i cs : List Char} (h : Padded ('[' :: (i ++ [']'])) cs) :
    trim cs = '[' :: (i ++ [']']) := by
  rw [Text.trim_padded h]
  have := trim_around (c := '[') (by decide) [] (i ++ [']'])
  rw [List.nil_append, trimRight_concat (by decide)] at this
  simpa [trimLeft] using this

/-- A spelled token is not blank. -/
lemma Sound.trim_ne_nil (hd : d.Sound) {p : List Char} (h : d.Spells p) : trim p ≠ [] := by
  cases h with
  | bare _ he hp =>
    rw [Text.trim_padded hp]
    exact hd.spells_ne_nil he
  | bracketed _ _ _ hp => simp [trim_bracketed hp]

/-- **A spelling of a readable descriptor reads back**, and so does every text with the same
trimmed form. -/
lemma parse_of_spells (hd : d.Readable) {p : List Char} (h : d.Spells p) {cs : List Char}
    (hcs : trim cs = trim p) : parse (String.ofList cs) = .ok d := by
  rw [parse]
  simp only [String.toList_ofList]
  rw [hcs]
  cases h with
  | @bare e _ hbare he hp =>
    rw [Text.trim_padded hp]
    by_cases hunit : d.detail = .plain ∧ d.name = unitName
    · -- the empty parameter list
      have hopt := hd.unit hunit.1 hunit.2
      rw [hunit.1] at he
      obtain ⟨ha⟩ := he
      rw [hd.trim_name ha, hunit.2, if_pos rfl]
      obtain ⟨name, detail, optional⟩ := d
      obtain ⟨rfl, rfl⟩ := hunit
      obtain rfl := hopt
      rfl
    · have hopt : d.optional = false := by
        by_contra hopt
        have hopt : d.optional = true := by simpa using hopt
        have hname : d.name = unitName := by
          simpa [isBracketed, hopt] using hbare
        exact hunit ⟨hd.shown hopt hname, hname⟩
      rw [if_neg (hd.trim_ne_unit hunit he), hd.unbracket?_eq_none (hd.unbracketed hopt) he]
      simp only [hd.spells_ne_nil he, if_false]
      rw [parseExpression_of_spells hd.toSound he, ← hopt]
  | @bracketed e i _ hbr he hi hp =>
    have hopt : d.optional = true := by
      simp only [isBracketed, Bool.and_eq_true] at hbr
      exact hbr.1
    have hunbracket : unbracket? ('[' :: (i ++ [']'])) = some (trim e) := by
      simp [unbracket?, Text.trim_padded hi]
    have hunitName : unitName.toList = ['(', ')'] := by decide
    rw [trim_bracketed hp, if_neg (by simp [hunitName]), hunbracket]
    simp only [hd.spells_ne_nil he, if_false]
    rw [parseExpression_of_spells hd.toSound he, ← hopt]

/-- Of the readable descriptors only `()` is written as `()`. -/
lemma Readable.trim_eq_unit_iff (hd : d.Readable) {p : List Char} (h : d.Spells p) :
    trim p = unitName.toList ↔ d = unit := by
  constructor
  · intro hp
    have hparse : parse unitName = .ok d := by
      have htrim : trim unitName.toList = trim p := by
        rw [hp]
        decide
      simpa using parse_of_spells hd h htrim
    have hunit : parse unitName = .ok unit := by decide
    rw [hunit] at hparse
    exact (Except.ok.inj hparse).symm
  · rintro rfl
    cases h with
    | @bare e _ _ he hp =>
      rw [Text.trim_padded hp]
      obtain ⟨ha⟩ : Detail.Spells unitName .plain e := he
      exact hd.toSound.trim_name ha
    | bracketed hbr _ _ _ =>
      have : unit.isBracketed = false := by decide
      rw [this] at hbr
      exact absurd hbr (by simp)

lemma Sound.isPiece_name (hd : d.Sound) {a : List Char} (ha : Padded d.name.toList a) :
    IsPiece [','] a := by
  refine IsPiece.padded isDelimiter_comma (closes_of_plain fun c hc => ?_) ha
  obtain ⟨h₁, h₂, -, h₃⟩ := hd.chars c hc
  exact ⟨h₁, h₂, by simpa [stopsAt] using Ne.symm h₃⟩

/-- The arguments of a sound descriptor close all their own brackets. -/
lemma isBalanced_arguments {types : List String} {ps : List (List Char)}
    (hsound : (Detail.arguments types).Sound)
    (hps : List.Forall₂ (fun t p => Padded t.toList p) types ps) :
    IsBalanced ([';'].intercalate ps) := by
  refine balanced_intercalate (by decide) fun p hp => ?_
  obtain ⟨t, ht, htp⟩ := exists_left_of_mem hps hp
  exact ((hsound.2 t ht).2.padded isDelimiter_semicolon htp).balanced

/-- A spelled expression has no comma outside of its brackets. -/
lemma Sound.isPiece_expression (hd : d.Sound) {e : List Char} (h : d.detail.Spells d.name e) :
    IsPiece [','] e := by
  have hsound := hd.detail
  obtain ⟨name, k, b⟩ := d
  cases h with
  | plain ha => exact hd.isPiece_name ha
  | label ha hb =>
    have hb' := IsPiece.padded isDelimiter_comma hsound.2 hb
    rw [IsPiece] at hb' ⊢
    rw [closes_append (hd.isPiece_name ha), closes_other (by decide) (by decide), hb']
    rfl
  | @arguments types a ps ha hps =>
    have hinside : closes (stopsAt [',']) (0 + (0 + 1)) ([';'].intercalate ps ++ ['>']) = _ :=
      closes_inside (isBalanced_arguments hsound hps) 0 ['>']
    rw [IsPiece]
    rw [closes_append (hd.isPiece_name ha), closes_open, hinside]
    rfl

/-- A spelled token has no comma outside of its brackets. -/
lemma Sound.isPiece_comma (hd : d.Sound) {p : List Char} (h : d.Spells p) : IsPiece [','] p := by
  cases h with
  | bare _ he hp => exact (hd.isPiece_expression he).padded isDelimiter_comma hp
  | @bracketed e i _ _ he hi hp =>
    refine IsPiece.padded isDelimiter_comma ?_ hp
    have hi' := (hd.isPiece_expression he).padded isDelimiter_comma hi
    rw [IsPiece] at hi' ⊢
    rw [closes_other (by decide) (by decide), closes_append hi']
    rfl

end Descriptor

end CallContracts
