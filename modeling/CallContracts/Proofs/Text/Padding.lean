import Mathlib.Data.List.DropRight
import Mathlib.Tactic
import CallContracts.Text.Blank

/-!
Blanks around a text, and what trimming makes of them.

* `Padded core cs`: the text `cs` is `core` with blanks around it;
* `trim_padded`: blanks around a text do not change its trimmed form;
* `padded_trim`: a text is its trimmed form with blanks around it, so `trim_trim`;
* `trim_around`: trimming around a character that is not blank trims each side on its own.
-/

namespace CallContracts

/-! ### Lists side by side -/

lemma exists_right_of_mem {α β : Type} {R : α → β → Prop} {as : List α} {bs : List β}
    (h : List.Forall₂ R as bs) {a : α} (ha : a ∈ as) : ∃ b ∈ bs, R a b := by
  induction h with
  | nil => simp at ha
  | cons hab _ ih =>
    rcases List.mem_cons.1 ha with rfl | ha
    · exact ⟨_, by simp, hab⟩
    · obtain ⟨b, hb, hR⟩ := ih ha
      exact ⟨b, by simp [hb], hR⟩

lemma exists_left_of_mem {α β : Type} {R : α → β → Prop} {as : List α} {bs : List β}
    (h : List.Forall₂ R as bs) {b : β} (hb : b ∈ bs) : ∃ a ∈ as, R a b :=
  exists_right_of_mem h.flip hb

namespace Text

/-! ### Blanks -/

/-- A run of blanks. -/
def Blank (cs : List Char) : Prop := ∀ c ∈ cs, isBlank c = true

instance (cs : List Char) : Decidable (Blank cs) := List.decidableBAll _ cs

/-- A text with blanks around it. -/
def Padded (core cs : List Char) : Prop := ∃ l r, Blank l ∧ Blank r ∧ cs = l ++ core ++ r

lemma blank_nil : Blank [] := by simp [Blank]

lemma Padded.refl (cs : List Char) : Padded cs cs := ⟨[], [], blank_nil, blank_nil, by simp⟩

lemma Blank.append {l r : List Char} (hl : Blank l) (hr : Blank r) : Blank (l ++ r) := by
  intro c hc
  rcases List.mem_append.1 hc with h | h
  · exact hl c h
  · exact hr c h

lemma Padded.trans {a b c : List Char} (hab : Padded a b) (hbc : Padded b c) : Padded a c := by
  obtain ⟨l, r, hl, hr, rfl⟩ := hab
  obtain ⟨l', r', hl', hr', rfl⟩ := hbc
  exact ⟨l' ++ l, r ++ r', hl'.append hl, hr.append hr', by simp⟩

lemma padded_lists_trans {as bs cs : List (List Char)} (hab : List.Forall₂ Padded as bs)
    (hbc : List.Forall₂ Padded bs cs) : List.Forall₂ Padded as cs := by
  induction hab generalizing cs with
  | nil => exact hbc
  | cons h _ ih =>
    rcases hbc with _ | ⟨h', hbc⟩
    exact .cons (h.trans h') (ih hbc)

lemma padded_lists_refl (as : List (List Char)) : List.Forall₂ Padded as as :=
  List.forall₂_same.2 fun a _ => Padded.refl a

/-! ### One end -/

lemma trimLeft_append {l : List Char} (hl : Blank l) (cs : List Char) :
    trimLeft (l ++ cs) = trimLeft cs :=
  List.dropWhile_append_of_pos hl

lemma trimRight_append {r : List Char} (hr : Blank r) (cs : List Char) :
    trimRight (cs ++ r) = trimRight cs := by
  simp only [trimRight]
  rw [List.reverse_append, List.dropWhile_append_of_pos]
  exact fun c hc => hr c (List.mem_reverse.1 hc)

/-- What trimming on the left drops is blank. -/
lemma exists_trimLeft (cs : List Char) : ∃ l, Blank l ∧ cs = l ++ trimLeft cs :=
  ⟨cs.takeWhile isBlank, fun _ hc => List.mem_takeWhile_imp hc, by simp [trimLeft]⟩

/-- What trimming on the right drops is blank. -/
lemma exists_trimRight (cs : List Char) : ∃ r, Blank r ∧ cs = trimRight cs ++ r := by
  refine ⟨(cs.reverse.takeWhile isBlank).reverse, fun c hc => ?_, ?_⟩
  · exact List.mem_takeWhile_imp (List.mem_reverse.1 hc)
  · rw [trimRight]
    rw [← List.reverse_append, List.takeWhile_append_dropWhile, List.reverse_reverse]

lemma trimLeft_cons {c : Char} (hc : isBlank c = false) (cs : List Char) :
    trimLeft (c :: cs) = c :: cs := by
  simp [trimLeft, hc]

lemma trimRight_concat {c : Char} (hc : isBlank c = false) (cs : List Char) :
    trimRight (cs ++ [c]) = cs ++ [c] := by
  simp [trimRight, hc]

/-- Trimming on the right stops at the last character that is not blank. -/
lemma trimRight_append_cons {c : Char} (hc : isBlank c = false) (as bs : List Char) :
    trimRight (as ++ c :: bs) = as ++ c :: trimRight bs := by
  obtain ⟨r, hr, hbs⟩ := exists_trimRight bs
  have hlast : trimRight (as ++ c :: trimRight bs) = as ++ c :: trimRight bs := by
    rcases List.eq_nil_or_concat (trimRight bs) with h | ⟨ds, d, h⟩
    · rw [h]
      exact trimRight_concat hc as
    · have hrev : (trimLeft bs.reverse).head? = some d := by
        have hrev : trimLeft bs.reverse = (trimRight bs).reverse := by
          simp [trimLeft, trimRight]
        rw [hrev, h]
        simp
      have hd : isBlank d = false := head_trimLeft hrev
      rw [h, List.concat_eq_append]
      simpa using trimRight_concat hd (as ++ c :: ds)
  calc trimRight (as ++ c :: bs)
      = trimRight ((as ++ c :: trimRight bs) ++ r) := by
        conv_lhs => rw [hbs]
        simp
    _ = as ++ c :: trimRight bs := by rw [trimRight_append hr, hlast]

/-! ### Both ends -/

lemma trim_append {l r : List Char} (hl : Blank l) (hr : Blank r) (cs : List Char) :
    trim (l ++ cs ++ r) = trim cs := by
  simp only [trim]
  rw [List.append_assoc, trimLeft_append hl]
  obtain ⟨l', hl', hcs⟩ := exists_trimLeft cs
  rcases hc : trimLeft cs with _ | ⟨c, ds⟩
  · -- nothing but blanks
    have hblank : Blank (cs ++ r) := by
      rw [hcs, hc, List.append_nil]
      exact hl'.append hr
    have hnil : trimLeft (cs ++ r) = [] := by
      have := trimLeft_append hblank []
      simpa [trimLeft] using this
    rw [hnil]
  · have hhead : (trimLeft cs).head? = some c := by rw [hc]; rfl
    have hc' : isBlank c = false := head_trimLeft hhead
    have hmove : trimLeft (cs ++ r) = trimLeft cs ++ r := by
      conv_lhs => rw [hcs, List.append_assoc, trimLeft_append hl', hc, List.cons_append]
      rw [hc, trimLeft_cons hc', List.cons_append]
    rw [hmove, hc, trimRight_append hr]

/-- Blanks around a text do not change its trimmed form. -/
lemma trim_padded {core cs : List Char} (h : Padded core cs) : trim cs = trim core := by
  obtain ⟨l, r, hl, hr, rfl⟩ := h
  exact trim_append hl hr core

/-- Blanks around texts do not change their trimmed forms. -/
lemma map_trim_padded {as bs : List (List Char)} (h : List.Forall₂ Padded as bs) :
    bs.map trim = as.map trim := by
  induction h with
  | nil => rfl
  | cons hab _ ih => rw [List.map_cons, List.map_cons, ih, trim_padded hab]

/-- A text is its trimmed form with blanks around it. -/
lemma padded_trim (cs : List Char) : Padded (trim cs) cs := by
  obtain ⟨l, hl, hcs⟩ := exists_trimLeft cs
  obtain ⟨r, hr, hcs'⟩ := exists_trimRight (trimLeft cs)
  refine ⟨l, r, hl, hr, ?_⟩
  rw [trim]
  rw [List.append_assoc, ← hcs', ← hcs]

lemma length_trim_le (cs : List Char) : (trim cs).length ≤ cs.length := by
  obtain ⟨l, r, -, -, hcs⟩ := padded_trim cs
  have hlength := congrArg List.length hcs
  simp only [List.length_append] at hlength
  omega

lemma trim_trim (cs : List Char) : trim (trim cs) = trim cs :=
  (trim_padded (padded_trim cs)).symm

/-- Trimming around a character that is not blank trims each side on its own. -/
lemma trim_around {c : Char} (hc : isBlank c = false) (as bs : List Char) :
    trim (as ++ c :: bs) = trimLeft as ++ c :: trimRight bs := by
  rw [trim]
  have hleft : trimLeft (as ++ c :: bs) = trimLeft as ++ c :: bs := by
    obtain ⟨l, hl, has⟩ := exists_trimLeft as
    rcases h : trimLeft as with _ | ⟨d, ds⟩
    · rw [h, List.append_nil] at has
      rw [has, trimLeft_append hl, trimLeft_cons hc, List.nil_append]
    · have hhead : (trimLeft as).head? = some d := by rw [h]; rfl
      have hd : isBlank d = false := head_trimLeft hhead
      conv_lhs => rw [has, List.append_assoc, trimLeft_append hl, h, List.cons_append]
      rw [trimLeft_cons hd, List.cons_append]
  rw [hleft, trimRight_append_cons hc]

lemma trim_trimLeft (cs : List Char) : trim (trimLeft cs) = trim cs := by
  obtain ⟨l, hl, hcs⟩ := exists_trimLeft cs
  conv_rhs => rw [hcs]
  simpa using (trim_append hl blank_nil (trimLeft cs)).symm

lemma trim_trimRight (cs : List Char) : trim (trimRight cs) = trim cs := by
  obtain ⟨r, hr, hcs⟩ := exists_trimRight cs
  conv_rhs => rw [hcs]
  simpa using (trim_append blank_nil hr (trimRight cs)).symm

end Text

end CallContracts
