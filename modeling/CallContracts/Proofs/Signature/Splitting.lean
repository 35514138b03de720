import Mathlib.Tactic
import CallContracts.Proofs.Text.Padding
import CallContracts.Signature.Split

/-!
The theory of splitting at top-level delimiters: splitting and joining are mutually inverse.

* `closes stop depth cs`: read from `depth` brackets deep, the text `cs` ends outside all
  brackets, closes none that is not open, and has no `stop` character outside of all;
* `IsPiece delimiter cs`: the text can stand between two delimiters;
* `scan_append`: the scanner passes over a piece as a whole;
* `split_intercalate`: joined pieces split into the pieces;
* `split_sound`: a split text is the join of its pieces, so `split_eq_ok_iff`;
* `split_unpadded`: blanks around a text only pad the pieces at its ends, so `split_trim`.
-/

namespace CallContracts.Signature

open Text

/-! ### Brackets -/

/-- Whether a text that lies `depth` brackets deep ends outside all brackets, closes none that
is not open, and has no `stop` character outside of all. -/
def closes (stop : Char → Bool) : (depth : Nat) → List Char → Bool
  | depth, [] => depth == 0
  | depth, c :: cs =>
    if c = '<' then closes stop (depth + 1) cs
    else if c = '>' then
      match depth with
      | 0 => false
      | d + 1 => closes stop d cs
    else (depth != 0 || !stop c) && closes stop depth cs

/-- The brackets of a text pair up. -/
def IsBalanced (cs : List Char) : Prop := closes (fun _ => false) 0 cs = true

/-- Whether a character is all of a delimiter. -/
def stopsAt (delimiter : List Char) (c : Char) : Bool := delimiter == [c]

/-- A text whose brackets pair up and that has no delimiter outside of them. An arrow outside of
all brackets has a `>` that closes nothing. -/
def IsPiece (delimiter cs : List Char) : Prop := closes (stopsAt delimiter) 0 cs = true

instance (cs : List Char) : Decidable (IsBalanced cs) := inferInstanceAs (Decidable (_ = true))

instance (delimiter cs : List Char) : Decidable (IsPiece delimiter cs) :=
  inferInstanceAs (Decidable (_ = true))

/-- The delimiters: a single character that is neither a bracket nor blank, or the arrow. -/
inductive IsDelimiter : List Char → Prop
  | single {c : Char} : c ≠ '<' → c ≠ '>' → isBlank c = false → IsDelimiter [c]
  | arrow : IsDelimiter ['=', '>']

lemma isDelimiter_comma : IsDelimiter [','] :=
  .single (by decide) (by decide) (by decide)

lemma isDelimiter_semicolon : IsDelimiter [';'] :=
  .single (by decide) (by decide) (by decide)

lemma isDelimiter_arrow : IsDelimiter ['=', '>'] := .arrow

lemma isPiece_arrow_iff {cs : List Char} : IsPiece ['=', '>'] cs ↔ IsBalanced cs := by
  have h : stopsAt ['=', '>'] = fun _ => false := by
    funext c
    simp [stopsAt]
  rw [IsPiece, IsBalanced, h]

lemma IsDelimiter.ne_nil {d : List Char} (hd : IsDelimiter d) : d ≠ [] := by
  cases hd <;> simp

section closes

variable {stop : Char → Bool} {depth : Nat} {cs : List Char}

lemma closes_open : closes stop depth ('<' :: cs) = closes stop (depth + 1) cs := by
  simp [closes]

lemma closes_close : closes stop (depth + 1) ('>' :: cs) = closes stop depth cs := by
  simp [closes]

lemma closes_other {c : Char} (h₁ : c ≠ '<') (h₂ : c ≠ '>') :
    closes stop depth (c :: cs) = ((depth != 0 || !stop c) && closes stop depth cs) := by
  simp [closes, h₁, h₂]

/-- After a text that closes, reading goes on outside of all brackets. -/
lemma closes_append (h : closes stop depth cs = true) (rest : List Char) :
    closes stop depth (cs ++ rest) = closes stop 0 rest := by
  induction cs generalizing depth with
  | nil =>
    have hdepth : depth = 0 := by simpa [closes] using h
    rw [hdepth, List.nil_append]
  | cons c cs ih =>
    by_cases h₁ : c = '<'
    · subst h₁
      rw [closes_open] at h
      rw [List.cons_append, closes_open, ih h]
    · by_cases h₂ : c = '>'
      · subst h₂
        rcases depth with _ | d
        · simp [closes] at h
        · rw [closes_close] at h
          rw [List.cons_append, closes_close, ih h]
      · rw [closes_other h₁ h₂, Bool.and_eq_true] at h
        rw [List.cons_append, closes_other h₁ h₂, ih h.2, h.1, Bool.true_and]

/-- Fewer stop characters are easier to avoid. -/
lemma closes_mono {stop' : Char → Bool} (hs : ∀ c, stop' c = true → stop c = true)
    (h : closes stop depth cs = true) : closes stop' depth cs = true := by
  induction cs generalizing depth with
  | nil => exact h
  | cons c cs ih =>
    by_cases h₁ : c = '<'
    · subst h₁
      rw [closes_open] at h ⊢
      exact ih h
    · by_cases h₂ : c = '>'
      · subst h₂
        rcases depth with _ | d
        · simp [closes] at h
        · rw [closes_close] at h ⊢
          exact ih h
      · rw [closes_other h₁ h₂, Bool.and_eq_true] at h ⊢
        refine ⟨?_, ih h.2⟩
        have := hs c
        revert this
        have := h.1
        revert this
        cases stop c <;> cases stop' c <;> simp

/-- Characters that neither bracket nor stop close nothing. -/
lemma closes_of_plain (h : ∀ c ∈ cs, c ≠ '<' ∧ c ≠ '>' ∧ stop c = false) :
    closes stop 0 cs = true := by
  induction cs with
  | nil => rfl
  | cons c cs ih =>
    obtain ⟨h₁, h₂, hstop⟩ := h c (by simp)
    rw [closes_other h₁ h₂, hstop, ih fun e he => h e (by simp [he])]
    rfl

/-- Inside brackets no character stops: a text whose brackets pair up is read through. -/
lemma closes_inside (h : closes (fun _ => false) depth cs = true) (k : Nat) (rest : List Char) :
    closes stop (depth + (k + 1)) (cs ++ rest) = closes stop (k + 1) rest := by
  induction cs generalizing depth with
  | nil =>
    have hdepth : depth = 0 := by simpa [closes] using h
    rw [hdepth, List.nil_append, Nat.zero_add]
  | cons c cs ih =>
    by_cases h₁ : c = '<'
    · subst h₁
      rw [closes_open] at h
      rw [List.cons_append, closes_open, ← ih h, Nat.add_right_comm]
    · by_cases h₂ : c = '>'
      · subst h₂
        rcases depth with _ | d
        · simp [closes] at h
        · rw [closes_close] at h
          rw [List.cons_append, Nat.add_right_comm, closes_close, ih h]
      · rw [closes_other h₁ h₂, Bool.and_eq_true] at h
        rw [List.cons_append, closes_other h₁ h₂, ih h.2]
        simp

end closes

lemma IsPiece.balanced {d cs : List Char} (h : IsPiece d cs) : IsBalanced cs :=
  closes_mono (by simp) h

/-- Texts whose brackets pair up, joined at such a text. -/
lemma balanced_intercalate {d : List Char} (hd : IsBalanced d) {ps : List (List Char)}
    (hps : ∀ p ∈ ps, IsBalanced p) : IsBalanced (d.intercalate ps) := by
  induction ps with
  | nil => rfl
  | cons p qs ih =>
    have hp : IsBalanced p := hps p (by simp)
    have hqs := ih fun q hq => hps q (by simp [hq])
    rcases qs with _ | ⟨q, qs⟩
    · simpa using hp
    · rw [List.intercalate_cons_cons]
      rw [IsBalanced] at *
      rw [List.append_assoc, closes_append hp, closes_append hd, hqs]

/-! ### The scanner -/

/-- What a mapped result is made of. -/
lemma exists_of_map_ok {ε α β : Type} {f : α → β} {x : Except ε α} {b : β}
    (h : f <$> x = .ok b) : ∃ a, x = .ok a ∧ f a = b := by
  cases x with
  | error e => simp [Functor.map, Except.map] at h
  | ok a => exact ⟨a, rfl, by simpa [Functor.map, Except.map] using h⟩

section scan

variable {d : List Char} {depth pos : Nat} {cs rest : List Char}

lemma IsDelimiter.not_prefix_open (hd : IsDelimiter d) : d.isPrefixOf ('<' :: cs) = false := by
  cases hd with
  | single h₁ _ _ => simp [List.isPrefixOf, h₁]
  | arrow => simp [List.isPrefixOf]

lemma scan_cons {c : Char} :
    scan d depth 0 pos (c :: cs) =
      if depth = 0 ∧ d.isPrefixOf (c :: cs) then
        ([] :: ·) <$> scan d 0 (d.length - 1) (pos + 1) cs
      else if c = '<' then extend c <$> scan d (depth + 1) 0 (pos + 1) cs
      else if c = '>' then
        match depth with
        | 0 => .error (.strayClose pos)
        | k + 1 => extend c <$> scan d k 0 (pos + 1) cs
      else extend c <$> scan d depth 0 (pos + 1) cs := rfl

lemma scan_open (hd : IsDelimiter d) :
    scan d depth 0 pos ('<' :: cs) = extend '<' <$> scan d (depth + 1) 0 (pos + 1) cs := by
  simp [scan_cons, hd.not_prefix_open]

lemma scan_close :
    scan d (depth + 1) 0 pos ('>' :: cs) = extend '>' <$> scan d depth 0 (pos + 1) cs := by
  simp [scan_cons]

lemma scan_other {c : Char} (h₁ : c ≠ '<') (h₂ : c ≠ '>')
    (h : ¬ (depth = 0 ∧ d.isPrefixOf (c :: cs) = true)) :
    scan d depth 0 pos (c :: cs) = extend c <$> scan d depth 0 (pos + 1) cs := by
  rw [scan_cons, if_neg h, if_neg h₁, if_neg h₂]

/-- At a delimiter outside of all brackets a new piece begins. -/
lemma scan_delimiter (hd : IsDelimiter d) :
    scan d 0 0 pos (d ++ rest) = ([] :: ·) <$> scan d 0 0 (pos + d.length) rest := by
  cases hd with
  | single _ _ _ => simp [scan_cons, List.isPrefixOf]
  | arrow => simp [scan, List.isPrefixOf]

/-- No delimiter begins at an ordinary character of a piece, also not with what follows it. -/
lemma IsDelimiter.not_prefix_append (hd : IsDelimiter d) {c : Char}
    (hstop : stopsAt d c = false) (hcs : closes (stopsAt d) 0 cs = true)
    (hrest : rest.head? ≠ some '>') : d.isPrefixOf (c :: (cs ++ rest)) = false := by
  cases hd with
  | @single e _ _ _ =>
    have : e ≠ c := by simpa [stopsAt] using hstop
    simp [List.isPrefixOf, this]
  | arrow =>
    rcases cs with _ | ⟨e, es⟩
    · rcases rest with _ | ⟨f, fs⟩
      · simp [List.isPrefixOf]
      · have : '>' ≠ f := fun he => hrest (by rw [he, List.head?_cons])
        simp [List.isPrefixOf, this]
    · have : '>' ≠ e := fun he => by subst he; simp [closes] at hcs
      simp [List.isPrefixOf, this]

/-- The scanner passes over a piece as a whole. -/
lemma scan_append (hd : IsDelimiter d) (hcs : closes (stopsAt d) depth cs = true)
    (hrest : rest.head? ≠ some '>') :
    scan d depth 0 pos (cs ++ rest) =
      List.modifyHead (cs ++ ·) <$> scan d 0 0 (pos + cs.length) rest := by
  induction cs generalizing depth pos with
  | nil =>
    have hdepth : depth = 0 := by simpa [closes] using hcs
    have hid : List.modifyHead (fun x : List Char => [] ++ x) = id := by
      funext ps
      cases ps <;> simp
    rw [hid, id_map, hdepth]
    simp
  | cons c cs ih =>
    have hlength : pos + 1 + cs.length = pos + (c :: cs).length := by
      simp only [List.length_cons]
      omega
    have hcons : ∀ x : Except Imbalance (List (List Char)),
        extend c <$> List.modifyHead (cs ++ ·) <$> x =
          List.modifyHead ((c :: cs) ++ ·) <$> x := by
      intro x
      rw [Functor.map_map]
      congr 1
      funext ps
      cases ps <;> simp
    rw [List.cons_append]
    by_cases h₁ : c = '<'
    · subst h₁
      rw [closes_open] at hcs
      rw [scan_open hd, ih hcs, hcons, hlength]
    · by_cases h₂ : c = '>'
      · subst h₂
        rcases depth with _ | k
        · simp [closes] at hcs
        · rw [closes_close] at hcs
          rw [scan_close, ih hcs, hcons, hlength]
      · rw [closes_other h₁ h₂, Bool.and_eq_true] at hcs
        have hpre : ¬ (depth = 0 ∧ d.isPrefixOf (c :: (cs ++ rest)) = true) := by
          rintro ⟨rfl, hpre⟩
          rw [hd.not_prefix_append (by simpa using hcs.1) hcs.2 hrest] at hpre
          exact absurd hpre (by simp)
        rw [scan_other h₁ h₂ hpre, ih hcs.2, hcons, hlength]

end scan

/-! ### Joins -/

/-- A text is the join of pieces, the first of which is read from `depth` brackets deep. -/
def IsJoin (d : List Char) (depth : Nat) (cs : List Char) : List (List Char) → Prop
  | [] => False
  | p :: qs =>
    closes (stopsAt d) depth p = true ∧ (∀ q ∈ qs, IsPiece d q) ∧ cs = d.intercalate (p :: qs)

section join

variable {d : List Char} {depth pos : Nat} {cs : List Char} {ps : List (List Char)}

/-- A character that takes part in no delimiter goes to the first piece. -/
lemma IsJoin.extend {k : Nat} {c : Char} (h : IsJoin d k cs ps)
    (hc : ∀ p, closes (stopsAt d) k p = true → closes (stopsAt d) depth (c :: p) = true) :
    IsJoin d depth (c :: cs) (extend c ps) := by
  rcases ps with _ | ⟨p, qs⟩
  · exact h.elim
  · obtain ⟨hp, hqs, rfl⟩ := h
    refine ⟨hc p hp, hqs, ?_⟩
    cases qs <;> simp [List.intercalate_cons_cons]

/-- In front of a delimiter stands one more piece. -/
lemma IsJoin.next (h : IsJoin d 0 cs ps) : IsJoin d 0 (d ++ cs) ([] :: ps) := by
  rcases ps with _ | ⟨p, qs⟩
  · exact h.elim
  · obtain ⟨hp, hqs, rfl⟩ := h
    refine ⟨rfl, fun q hq => ?_, by simp [List.intercalate_cons_cons]⟩
    rcases List.mem_cons.1 hq with rfl | hq
    · exact hp
    · exact hqs q hq

/-- What is left behind the first character of a delimiter. -/
lemma IsDelimiter.eq_append_drop (hd : IsDelimiter d) {c : Char}
    (h : d.isPrefixOf (c :: cs) = true) : c :: cs = d ++ cs.drop (d.length - 1) := by
  obtain ⟨tail, htail⟩ := List.isPrefixOf_iff_prefix.1 h
  cases hd with
  | single _ _ _ =>
    rw [List.cons_append, List.cons.injEq] at htail
    simp [htail.1]
  | arrow =>
    rw [List.cons_append, List.cons.injEq] at htail
    rw [← htail.1, ← htail.2]
    simp

/-- A text that the scanner takes apart is the join of the pieces that it finds. -/
lemma isJoin_of_scan {skip : Nat} (hd : IsDelimiter d)
    (h : scan d depth skip pos cs = .ok ps) : IsJoin d depth (cs.drop skip) ps := by
  induction cs generalizing depth skip pos ps with
  | nil =>
    rw [scan] at h
    split at h
    · next hdepth =>
      have hps : [[]] = ps := by simpa using h
      rw [← hps]
      exact ⟨by simp [closes, hdepth], by simp, by simp⟩
    · simp at h
  | cons c cs ih =>
    rcases skip with _ | k
    · rw [List.drop_zero]
      by_cases hpre : depth = 0 ∧ d.isPrefixOf (c :: cs) = true
      · rw [scan_cons, if_pos hpre] at h
        obtain ⟨qs, hs, rfl⟩ := exists_of_map_ok h
        rw [hpre.1, hd.eq_append_drop hpre.2]
        exact (ih hs).next
      · by_cases h₁ : c = '<'
        · subst h₁
          rw [scan_open hd] at h
          obtain ⟨qs, hs, rfl⟩ := exists_of_map_ok h
          exact (ih hs).extend fun p hp => by rwa [closes_open]
        · by_cases h₂ : c = '>'
          · subst h₂
            rcases depth with _ | k
            · rw [scan_cons, if_neg hpre, if_neg h₁, if_pos rfl] at h
              simp at h
            · rw [scan_close] at h
              obtain ⟨qs, hs, rfl⟩ := exists_of_map_ok h
              exact (ih hs).extend fun p hp => by rwa [closes_close]
          · rw [scan_other h₁ h₂ hpre] at h
            obtain ⟨qs, hs, rfl⟩ := exists_of_map_ok h
            refine (ih hs).extend fun p hp => ?_
            rw [closes_other h₁ h₂, hp, Bool.and_true]
            -- outside of all brackets the character is no delimiter
            by_contra hstop
            simp only [Bool.or_eq_true, bne_iff_ne, ne_eq, Bool.not_eq_true', not_or,
              not_not, Bool.not_eq_false, stopsAt, beq_iff_eq] at hstop
            exact hpre ⟨hstop.1, by simp [hstop.2, List.isPrefixOf]⟩
    · exact ih h

/-- **Joining undoes splitting**, and each part of a split text is one piece. -/
lemma split_sound (hd : IsDelimiter d) (h : split d cs = .ok ps) :
    (∀ p ∈ ps, IsPiece d p) ∧ cs = d.intercalate ps := by
  have hjoin := isJoin_of_scan hd h
  rcases ps with _ | ⟨p, qs⟩
  · exact hjoin.elim
  · obtain ⟨hp, hqs, hcs⟩ := hjoin
    refine ⟨fun q hq => ?_, by simpa using hcs⟩
    rcases List.mem_cons.1 hq with rfl | hq
    · exact hp
    · exact hqs q hq

lemma IsDelimiter.head_append (hd : IsDelimiter d) (rest : List Char) :
    (d ++ rest).head? ≠ some '>' := by
  cases hd with
  | single _ h _ => simpa using h
  | arrow => simp

/-- Joined pieces split into the pieces, at any place of a text. -/
lemma scan_intercalate (hd : IsDelimiter d) (hne : ps ≠ []) (hps : ∀ p ∈ ps, IsPiece d p)
    (pos : Nat) : scan d 0 0 pos (d.intercalate ps) = .ok ps := by
  induction ps generalizing pos with
  | nil => exact absurd rfl hne
  | cons p qs ih =>
    have hp : IsPiece d p := hps p (by simp)
    rcases qs with _ | ⟨q, qs⟩
    · have h : scan d 0 0 pos (p ++ []) = _ := scan_append hd hp (by simp)
      rw [List.append_nil] at h
      rw [List.intercalate_singleton, h]
      simp [scan, Functor.map, Except.map]
    · rw [List.intercalate_cons_cons, List.append_assoc,
        scan_append hd hp (hd.head_append _), scan_delimiter hd,
        ih (by simp) (fun x hx => hps x (by simp [hx]))]
      simp [Functor.map, Except.map]

/-- **Splitting undoes joining.** -/
lemma split_intercalate (hd : IsDelimiter d) (hne : ps ≠ []) (hps : ∀ p ∈ ps, IsPiece d p) :
    split d (d.intercalate ps) = .ok ps :=
  scan_intercalate hd hne hps 0

/-- A text splits into pieces exactly when it is their join. -/
lemma split_eq_ok_iff (hd : IsDelimiter d) :
    split d cs = .ok ps ↔ ps ≠ [] ∧ (∀ p ∈ ps, IsPiece d p) ∧ cs = d.intercalate ps := by
  constructor
  · exact fun h => ⟨split_ne_nil h, split_sound hd h⟩
  · rintro ⟨hne, hps, rfl⟩
    exact split_intercalate hd hne hps

/-- A text with a piece in front of its first delimiter. -/
lemma exists_of_split_append (hd : IsDelimiter d) {p : List Char} (hp : IsPiece d p)
    (h : split d (p ++ (d ++ cs)) = .ok ps) : ∃ qs, ps = p :: qs ∧ split d cs = .ok qs := by
  rw [split, scan_append hd hp (hd.head_append _), scan_delimiter hd] at h
  obtain ⟨_, hrest, rfl⟩ := exists_of_map_ok h
  obtain ⟨qs, hqs, rfl⟩ := exists_of_map_ok hrest
  refine ⟨qs, by simp, (split_eq_ok_iff hd).2 ⟨scan_ne_nil hqs, ?_⟩⟩
  have hjoin : IsJoin d 0 (cs.drop 0) qs := isJoin_of_scan hd hqs
  rcases qs with _ | ⟨q, qs⟩
  · exact hjoin.elim
  · obtain ⟨hq, hall, hcs⟩ := hjoin
    exact ⟨List.forall_mem_cons.2 ⟨hq, hall⟩, hcs⟩

end join

/-! ### Blanks around pieces -/

lemma IsDelimiter.not_blank {d : List Char} (hd : IsDelimiter d) :
    ∀ c ∈ d, isBlank c = false := by
  cases hd with
  | single _ _ h => simpa using h
  | arrow => simp [isBlank]

lemma IsDelimiter.not_stops_blank {d : List Char} (hd : IsDelimiter d) {c : Char}
    (hc : isBlank c = true) : stopsAt d c = false := by
  by_contra h
  have hdc : d = [c] := by simpa [stopsAt] using h
  have := hd.not_blank c (by simp [hdc])
  simp [hc] at this

section padding

variable {d : List Char} {cs core : List Char} {ps qs : List (List Char)}

lemma closes_blank {stop : Char → Bool} (hstop : ∀ c, isBlank c = true → stop c = false)
    {r : List Char} (hr : Blank r) : closes stop 0 r = true := by
  induction r with
  | nil => rfl
  | cons c r ih =>
    have hc : isBlank c = true := hr c (by simp)
    have h₁ : c ≠ '<' := fun h => by subst h; exact absurd hc (by decide)
    have h₂ : c ≠ '>' := fun h => by subst h; exact absurd hc (by decide)
    rw [closes_other h₁ h₂, hstop c hc, ih fun e he => hr e (by simp [he])]
    rfl

lemma closes_of_append_blank {stop : Char → Bool} {depth : Nat} {r : List Char} (hr : Blank r)
    (h : closes stop depth (core ++ r) = true) : closes stop depth core = true := by
  induction core generalizing depth with
  | nil =>
    -- blanks close no bracket
    rw [List.nil_append] at h
    induction r with
    | nil => exact h
    | cons c r ih =>
      have hc : isBlank c = true := hr c (by simp)
      have h₁ : c ≠ '<' := fun h => by subst h; exact absurd hc (by decide)
      have h₂ : c ≠ '>' := fun h => by subst h; exact absurd hc (by decide)
      rw [closes_other h₁ h₂, Bool.and_eq_true] at h
      exact ih (fun e he => hr e (by simp [he])) h.2
  | cons c cs ih =>
    rw [List.cons_append] at h
    by_cases h₁ : c = '<'
    · subst h₁
      rw [closes_open] at h ⊢
      exact ih h
    · by_cases h₂ : c = '>'
      · subst h₂
        rcases depth with _ | k
        · simp [closes] at h
        · rw [closes_close] at h ⊢
          exact ih h
      · rw [closes_other h₁ h₂, Bool.and_eq_true] at h ⊢
        exact ⟨h.1, ih h.2⟩

/-- Blanks around a text that is one piece. -/
lemma IsPiece.padded (hd : IsDelimiter d) (h : IsPiece d core) (hcs : Padded core cs) :
    IsPiece d cs := by
  obtain ⟨l, r, hl, hr, rfl⟩ := hcs
  have hstop : ∀ c, isBlank c = true → stopsAt d c = false := fun _ => hd.not_stops_blank
  rw [IsPiece]
  rw [List.append_assoc, closes_append (closes_blank hstop hl), closes_append h]
  exact closes_blank hstop hr

/-- What is left of a piece without the blanks around it is one piece. -/
lemma IsPiece.of_padded (hd : IsDelimiter d) (h : IsPiece d cs) (hcs : Padded core cs) :
    IsPiece d core := by
  obtain ⟨l, r, hl, hr, rfl⟩ := hcs
  have hstop : ∀ c, isBlank c = true → stopsAt d c = false := fun _ => hd.not_stops_blank
  rw [IsPiece] at h
  rw [List.append_assoc, closes_append (closes_blank hstop hl)] at h
  exact closes_of_append_blank hr h

/-- A blank in front of a join belongs to its first piece. -/
lemma unpad_head (hd : IsDelimiter d) {b : Char} (hb : isBlank b = true) (hne : ps ≠ [])
    (h : b :: cs = d.intercalate ps) :
    ∃ p qs, ps = (b :: p) :: qs ∧ cs = d.intercalate (p :: qs) := by
  rcases ps with _ | ⟨p, qs⟩
  · exact absurd rfl hne
  · rcases p with _ | ⟨c, p⟩
    · rcases qs with _ | ⟨q, qs⟩
      · simp at h
      · -- the delimiter would begin with a blank
        rw [List.intercalate_cons_cons, List.nil_append] at h
        rcases d with _ | ⟨e, es⟩
        · exact absurd rfl hd.ne_nil
        · rw [List.cons_append, List.cons.injEq] at h
          have := hd.not_blank e (by simp)
          rw [← h.1, hb] at this
          exact absurd this (by simp)
    · refine ⟨p, qs, ?_⟩
      cases qs <;> simp_all [List.intercalate_cons_cons]

/-- A blank behind a join belongs to its last piece. -/
lemma unpad_last (hd : IsDelimiter d) {b : Char} (hb : isBlank b = true) (hne : ps ≠ [])
    (h : cs ++ [b] = d.intercalate ps) :
    ∃ qs p, ps = qs ++ [p ++ [b]] ∧ cs = d.intercalate (qs ++ [p]) := by
  induction ps generalizing cs with
  | nil => exact absurd rfl hne
  | cons p qs ih =>
    rcases qs with _ | ⟨q, qs⟩
    · exact ⟨[], cs, by simpa using h.symm, by simp⟩
    · rw [List.intercalate_cons_cons] at h
      rcases List.eq_nil_or_concat (d.intercalate (q :: qs)) with hx | ⟨xs, x, hx⟩
      · -- the delimiter would end with a blank
        rw [hx, List.append_nil] at h
        have hmem : b ∈ d := by
          have hlast := congrArg List.getLast? h
          rw [List.getLast?_append, List.getLast?_append] at hlast
          rcases hd' : d.getLast? with _ | e
          · exact absurd (List.getLast?_eq_none_iff.1 hd') hd.ne_nil
          · rw [hd'] at hlast
            have : b = e := by simpa using hlast
            exact this ▸ List.mem_of_getLast? hd'
        have := hd.not_blank b hmem
        rw [hb] at this
        exact absurd this (by simp)
      · rw [hx, List.concat_eq_append, ← List.append_assoc] at h
        obtain ⟨hcs, hbx⟩ := List.append_inj' h rfl
        have hbx : b = x := by simpa using hbx
        obtain ⟨rs, r, hr, hxs⟩ := ih (by simp) (by rw [hx, List.concat_eq_append, hbx])
        refine ⟨p :: rs, r, by simp [hr], ?_⟩
        rw [hcs, hxs]
        cases rs <;> simp [List.intercalate_cons_cons]

/-- Without the blanks around it a join is the join of its pieces, without blanks at the ends. -/
lemma exists_unpadded (hd : IsDelimiter d) (hne : ps ≠ [])
    (h : Padded core (d.intercalate ps)) :
    ∃ qs, List.Forall₂ Padded qs ps ∧ core = d.intercalate qs := by
  obtain ⟨l, r, hl, hr, h⟩ := h
  have hleft : ∃ qs, List.Forall₂ Padded qs ps ∧ core ++ r = d.intercalate qs := by
    clear hr
    induction l generalizing ps with
    | nil =>
      exact ⟨ps, padded_lists_refl ps, by simpa using h.symm⟩
    | cons b l ih =>
      have hb' : b :: (l ++ core ++ r) = d.intercalate ps := by simpa using h.symm
      obtain ⟨p, qs, rfl, hcs⟩ := unpad_head hd (hl b (by simp)) hne hb'
      obtain ⟨rs, hrs, hcore⟩ := ih (by simp) (fun c hc => hl c (by simp [hc])) hcs.symm
      rcases rs with _ | ⟨q, rs⟩
      · cases hrs
      · obtain ⟨hq, hrs⟩ := List.forall₂_cons.1 hrs
        have hb : Padded p (b :: p) :=
          ⟨[b], [], by simpa [Blank] using hl b (by simp), blank_nil, by simp⟩
        exact ⟨q :: rs, .cons (hq.trans hb) hrs, hcore⟩
  obtain ⟨qs, hqs, hcore⟩ := hleft
  clear h hl
  induction r using List.reverseRecOn generalizing qs with
  | nil => exact ⟨qs, hqs, by simpa using hcore⟩
  | append_singleton r b ih =>
    have hqs' : qs ≠ [] := by
      rintro rfl
      cases hqs
      exact hne rfl
    have hb' : (core ++ r) ++ [b] = d.intercalate qs := by simpa using hcore
    obtain ⟨rs, p, rfl, hrs⟩ := unpad_last hd (hr b (by simp)) hqs' hb'
    refine ih (fun c hc => hr c (by simp [hc])) _ ?_ hrs
    have hb : Padded p (p ++ [b]) :=
      ⟨[], [b], blank_nil, by simpa [Blank] using hr b (by simp), by simp⟩
    have hstep : List.Forall₂ Padded (rs ++ [p]) (rs ++ [p ++ [b]]) :=
      List.rel_append (padded_lists_refl rs) (.cons hb .nil)
    exact padded_lists_trans hstep hqs

/-- **Blanks around a text** only pad the pieces at its ends. -/
lemma split_unpadded (hd : IsDelimiter d) (h : split d cs = .ok ps) (hcs : Padded core cs) :
    ∃ qs, split d core = .ok qs ∧ List.Forall₂ Padded qs ps := by
  obtain ⟨hps, hjoin⟩ := split_sound hd h
  obtain ⟨qs, hqs, hcore⟩ := exists_unpadded hd (split_ne_nil h) (hjoin ▸ hcs)
  have hne : qs ≠ [] := by
    rintro rfl
    cases hqs
    exact split_ne_nil h rfl
  refine ⟨qs, ?_, hqs⟩
  rw [hcore]
  refine split_intercalate hd hne fun q hq => ?_
  obtain ⟨p, hp, hqp⟩ := exists_right_of_mem hqs hq
  exact (hps p hp).of_padded hd hqp

/-- A trimmed text splits where the text does. -/
lemma split_trim (hd : IsDelimiter d) (h : split d cs = .ok ps) :
    ∃ qs, split d (trim cs) = .ok qs ∧ qs.map trim = ps.map trim := by
  obtain ⟨qs, hqs, hpadded⟩ := split_unpadded hd h (padded_trim cs)
  exact ⟨qs, hqs, (map_trim_padded hpadded).symm⟩

end padding

end CallContracts.Signature
