import CallContracts.Proofs.Signature.Reading

/-!
What a signature that was read is made of.

* `Descriptor.sound_of_parse`: a descriptor read from a token is sound;
* `Tree.parseForm_eq_ok_iff`, `Tree.checkNames_eq_ok_iff` and `Tree.parse_eq_ok_iff`: when a text
  reads, and as what;
* `Tree.sound_of_parseForm`: a tree that was read is well formed and all its descriptors are sound.
-/

namespace CallContracts

open Signature Text

/-! ### Pieces without brackets -/

section pieces

variable {stop : Char → Bool} {as bs : List Char}

/-- Before the first bracket opens, none closes and nothing stops. -/
lemma plain_of_closes (h : closes stop 0 (as ++ bs) = true) (hopen : ∀ c ∈ as, c ≠ '<') :
    ∀ c ∈ as, c ≠ '>' ∧ stop c = false := by
  induction as with
  | nil => simp
  | cons a as ih =>
    have ha : a ≠ '<' := hopen a (by simp)
    have hclose : a ≠ '>' := by
      rintro rfl
      simp [closes] at h
    rw [List.cons_append, closes_other ha hclose, Bool.and_eq_true] at h
    intro c hc
    rcases List.mem_cons.1 hc with rfl | hc
    · exact ⟨hclose, by simpa using h.1⟩
    · exact ih h.2 (fun e he => hopen e (by simp [he])) c hc

/-- What follows a text before the first bracket closes like the whole. -/
lemma closes_of_plain_append (h : closes stop 0 (as ++ bs) = true)
    (hopen : ∀ c ∈ as, c ≠ '<') : closes stop 0 bs = true := by
  have hplain := plain_of_closes h hopen
  have has : closes stop 0 as = true :=
    closes_of_plain fun c hc => ⟨hopen c hc, (hplain c hc).1, (hplain c hc).2⟩
  rwa [closes_append has] at h

/-- A last character that is no bracket can be left out. -/
lemma closes_of_concat {depth : Nat} {c : Char} (h₁ : c ≠ '<') (h₂ : c ≠ '>')
    (h : closes stop depth (as ++ [c]) = true) : closes stop depth as = true := by
  induction as generalizing depth with
  | nil =>
    rw [List.nil_append, closes_other h₁ h₂, Bool.and_eq_true] at h
    exact h.2
  | cons a as ih =>
    rw [List.cons_append] at h
    by_cases hopen : a = '<'
    · subst hopen
      rw [closes_open] at h ⊢
      exact ih h
    · by_cases hclose : a = '>'
      · subst hclose
        rcases depth with _ | k
        · simp [closes] at h
        · rw [closes_close] at h ⊢
          exact ih h
      · rw [closes_other hopen hclose, Bool.and_eq_true] at h ⊢
        exact ⟨h.1, ih h.2⟩

end pieces

/-! ### Descriptors -/

namespace Descriptor

lemma trimmed_trim (cs : List Char) : Trimmed (String.ofList (trim cs)) := by
  rw [Trimmed, String.toList_ofList]
  exact trim_trim cs

/-- Arguments that were read are trimmed pieces. -/
lemma sound_of_splitArguments {cs : List Char} {types : List String}
    (h : splitArguments cs = .ok types) : (Detail.arguments types).Sound := by
  obtain ⟨parts, hparts, rfl⟩ := exists_of_map_ok h
  have hsplit : split [';'] cs = .ok parts := split_of_pieces hparts
  refine ⟨by simpa using split_ne_nil hsplit, fun t ht => ?_⟩
  obtain ⟨part, hmem, rfl⟩ := List.mem_map.1 ht
  have hpiece := (split_sound isDelimiter_semicolon hsplit).1 part hmem
  refine ⟨trimmed_trim part, ?_⟩
  rw [String.toList_ofList]
  exact hpiece.of_padded isDelimiter_semicolon (padded_trim part)

/-- A label that was read is a trimmed piece. -/
lemma sound_of_label {a rest : List Char} (ha : ∀ c ∈ a, c ≠ '<')
    (h : IsPiece [','] (a ++ ':' :: rest)) :
    (Detail.label (String.ofList (trim rest))).Sound := by
  have hrest : closes (stopsAt [',']) 0 (':' :: rest) = true := closes_of_plain_append h ha
  rw [closes_other (by decide) (by decide), Bool.and_eq_true] at hrest
  have hlabel : IsPiece [','] rest := hrest.2
  refine ⟨trimmed_trim rest, ?_⟩
  rw [String.toList_ofList]
  exact hlabel.of_padded isDelimiter_comma (padded_trim rest)

/-- A name that does not stand in brackets does not look so. -/
lemma not_looksBracketed_plain {cs : List Char} (h : unbracket? cs = none) (optional : Bool) :
    ¬ LooksBracketed ⟨String.ofList cs, .plain, optional⟩ := by
  rintro ⟨hhead, hlast⟩
  simp only [String.toList_ofList] at hhead hlast
  rcases cs with _ | ⟨c, cs⟩
  · simp at hhead
  · rw [List.head?_cons, Option.some.injEq] at hhead
    simp only [List.tail_cons] at hlast
    simp [hhead, unbracket?, hlast] at h

/-- An expression that does not stand in brackets reads as one that does not look so. -/
lemma not_looksBracketed_label {a b : List Char} (h : unbracket? (a ++ ':' :: b) = none)
    (htrim : trim (a ++ ':' :: b) = a ++ ':' :: b) (optional : Bool) :
    ¬ LooksBracketed ⟨String.ofList (trim a), .label (String.ofList (trim b)), optional⟩ := by
  rintro ⟨hhead, hlast⟩
  replace hlast : (trim b).getLast? = some ']' := by simpa using hlast
  replace hhead : (trim a).head? = some '[' := by simpa using hhead
  rw [trim_label] at htrim
  have hleft : (trimLeft a).head? = some '[' := by
    rcases ha : trimLeft a with _ | ⟨c, cs⟩
    · rw [← trim_trimLeft, ha] at hhead
      exact absurd hhead (by decide)
    · rw [head_trim ha] at hhead
      exact hhead
  have hright : (trimRight b).getLast? = some ']' := by
    rcases hb : (trimRight b).getLast? with _ | c
    · rw [← trim_trimRight, List.getLast?_eq_none_iff.1 hb] at hlast
      exact absurd hlast (by decide)
    · have hc : isBlank c = false := by
        have hrev : (trimLeft b.reverse).head? = some c := by
          simpa [trimLeft, trimRight] using hb
        exact head_trimLeft hrev
      rw [last_trim hc hb] at hlast
      exact hlast
  rcases ha : trimLeft a with _ | ⟨c, cs⟩
  · rw [ha] at hleft
    simp at hleft
  · rw [ha, List.head?_cons, Option.some.injEq] at hleft
    rw [← htrim, ha, hleft] at h
    simp [unbracket?, List.getLast?_append, List.getLast?_cons, hright] at h

/-- What stands in front of the label or of the arguments can be a name. -/
lemma plain_of_takeWhile {cs : List Char} (hpiece : IsPiece [','] cs) :
    ∀ c ∈ trim (cs.takeWhile isNameChar), c ≠ '<' ∧ c ≠ '>' ∧ c ≠ ':' ∧ c ≠ ',' := by
  have hname : ∀ c ∈ cs.takeWhile isNameChar, c ≠ '<' ∧ c ≠ ':' := by
    intro c hc
    simpa [isNameChar] using List.mem_takeWhile_imp hc
  have hsplit : cs.takeWhile isNameChar ++ cs.dropWhile isNameChar = cs :=
    List.takeWhile_append_dropWhile
  rw [IsPiece] at hpiece
  rw [← hsplit] at hpiece
  intro c hc
  have hc' : c ∈ cs.takeWhile isNameChar := by
    obtain ⟨l, r, -, -, h⟩ := padded_trim (cs.takeWhile isNameChar)
    rw [h]
    simp [hc]
  obtain ⟨hclose, hstop⟩ := plain_of_closes hpiece (fun c hc => (hname c hc).1) c hc'
  have hcomma : c ≠ ',' := by
    rintro rfl
    simp [stopsAt] at hstop
  exact ⟨(hname c hc').1, hclose, (hname c hc').2, hcomma⟩

/-- A descriptor read from an expression is sound. -/
lemma sound_of_parseExpression {token : String} {optional : Bool} {body : List Char}
    {d : Descriptor} (h : parseExpression token optional body = .ok d)
    (htrim : trim body = body) (hne : body ≠ []) (hpiece : IsPiece [','] body)
    (hbare : optional = false → unbracket? body = none ∧ body ≠ unitName.toList) :
    d.Sound := by
  have hchars := plain_of_takeWhile hpiece
  have hsplit : body.takeWhile isNameChar ++ body.dropWhile isNameChar = body :=
    List.takeWhile_append_dropWhile
  have hname := trimmed_trim (body.takeWhile isNameChar)
  rw [parseExpression] at h
  split at h
  · -- the name alone
    next hdrop =>
    obtain rfl := Except.ok.inj h
    rw [hdrop, List.append_nil] at hsplit
    rw [hsplit, htrim] at hchars hname
    refine ⟨hname, by simpa using hchars, trivial, fun _ => by simpa using hne, ?_, ?_⟩
    · exact fun hopt => not_looksBracketed_plain (hbare hopt).1 optional
    · intro _ hunit
      by_contra hopt
      exact (hbare (by simpa using hopt)).2 (by rw [← hunit, String.toList_ofList])
  · next c rest hdrop =>
    rw [hdrop] at hsplit
    split at h
    · -- arguments
      next hopen =>
      split at h
      · obtain ⟨types, htypes, rfl⟩ := exists_of_map_ok (f := fun types => _) h
        refine ⟨hname, by simpa using hchars, sound_of_splitArguments htypes, ?_, ?_, ?_⟩
        · simp
        · rintro - ⟨-, hlook⟩
          exact hlook
        · simp
      · simp at h
    · -- a label
      next hopen =>
      obtain rfl := Except.ok.inj h
      have hc : c = ':' := by
        have := List.head?_dropWhile_not isNameChar body
        simp [hdrop, isNameChar, hopen] at this
        exact this
      subst hc
      rw [← hsplit] at htrim hpiece hbare
      refine ⟨hname, by simpa using hchars, ?_, by simp, fun hopt => ?_, by simp⟩
      · refine sound_of_label (fun c hc => ?_) hpiece
        have := List.mem_takeWhile_imp hc
        simp [isNameChar] at this
        exact this.1
      · exact not_looksBracketed_label (hbare hopt).1 htrim optional

/-- **A descriptor read from a token is sound.** -/
lemma sound_of_parse {token : String} {d : Descriptor} (h : parse token = .ok d)
    (hpiece : IsPiece [','] token.toList) : d.Sound := by
  have htext : IsPiece [','] (trim token.toList) :=
    hpiece.of_padded isDelimiter_comma (padded_trim _)
  rw [parse] at h
  simp only at h
  split at h
  · obtain rfl := Except.ok.inj h
    exact readable_unit.toSound
  · next hunit =>
    rcases hbr : unbracket? (trim token.toList) with _ | inner
    · rw [hbr] at h
      simp only at h
      split at h
      · simp at h
      · next hne =>
        exact sound_of_parseExpression h (trim_trim _) hne htext fun _ => ⟨hbr, hunit⟩
    · rw [hbr] at h
      simp only at h
      split at h
      · simp at h
      · next hne =>
        obtain ⟨i, hi, rfl⟩ := exists_of_unbracket? hbr
        have hinner : IsPiece [','] i := by
          rw [hi] at htext
          rw [IsPiece] at htext
          rw [closes_other (by decide) (by decide), Bool.and_eq_true] at htext
          exact closes_of_concat (by decide) (by decide) htext.2
        exact sound_of_parseExpression h (trim_trim i) hne
          (hinner.of_padded isDelimiter_comma (padded_trim i)) (by simp)

end Descriptor

/-! ### Stages and signatures -/

/-- A stage that was read is not empty, and its descriptors are sound. -/
lemma Stage.sound_of_parseStage {signature : String} {raw : List Char} {s : Stage}
    (h : Tree.parseStage signature raw = .ok s) : s ≠ [] ∧ ∀ d ∈ s, d.Sound := by
  rw [Tree.parseStage] at h
  simp only [bind, Except.bind] at h
  split at h
  · simp at h
  · split at h
    · simp at h
    · next ps hps =>
      have hsplit : split [','] (trim raw) = .ok ps := split_of_pieces hps
      split at h
      · simp at h
      · split at h
        · simp at h
        · have htokens := mapM_eq_ok_iff.1 h
          constructor
          · rintro rfl
            cases ps with
            | nil => exact split_ne_nil hsplit rfl
            | cons p ps => cases htokens
          · intro d hd
            obtain ⟨token, htoken, hparse⟩ := exists_left_of_mem htokens hd
            obtain ⟨p, hp, rfl⟩ := List.mem_map.1 htoken
            have hpiece := (split_sound isDelimiter_comma hsplit).1 p hp
            refine Descriptor.sound_of_parse hparse ?_
            rw [String.toList_ofList]
            exact hpiece.of_padded isDelimiter_comma (padded_trim p)

/-- A text reads as a signature when it splits into at least two stages, each of them reads, and the
last has one entry. -/
lemma Tree.parseForm_eq_ok_iff {signature : String} {t : Tree} :
    Tree.parseForm signature = .ok t ↔ ∃ raws, pieces "=>" signature.toList = .ok raws ∧
      2 ≤ raws.length ∧
      List.Forall₂ (fun raw s => Tree.parseStage signature raw = .ok s) raws t.stages ∧
      ∃ d, t.stages.getLast? = some [d] := by
  rw [Tree.parseForm]
  cases hraws : pieces "=>" signature.toList with
  | error e => simp [bind, Except.bind]
  | ok raws =>
    simp only [bind, Except.bind, Except.ok.injEq, exists_eq_left']
    by_cases hlength : raws.length < 2
    · simp only [hlength, if_true]
      refine ⟨fun h => by simp at h, fun h => ?_⟩
      omega
    · simp only [hlength, if_false]
      cases hstages : raws.mapM (Tree.parseStage signature) with
      | error e =>
        refine ⟨fun h => by simp at h, fun h => ?_⟩
        rw [mapM_eq_ok_iff.2 h.2.1] at hstages
        simp at hstages
      | ok stages =>
        have hread := mapM_eq_ok_iff.1 hstages
        constructor
        · intro h
          simp only at h
          split at h
          · next d hlast =>
            obtain rfl := Except.ok.inj h
            exact ⟨by omega, hread, d, hlast⟩
          · simp at h
        · rintro ⟨-, hread', d, hlast⟩
          have hsame : t.stages = stages := by
            rw [mapM_eq_ok_iff.2 hread'] at hstages
            exact Except.ok.inj hstages
          rw [hsame] at hlast
          simp only [hlast]
          rw [← hsame]
          rfl

/-- **A signature that was read** has stages that a signature can have, all of them sound. -/
lemma Tree.sound_of_parseForm {signature : String} {t : Tree}
    (h : Tree.parseForm signature = .ok t) :
    t.WellFormed ∧ ∀ s ∈ t.stages, ∀ d ∈ s, d.Sound := by
  obtain ⟨raws, -, hlength, hread, hlast⟩ := Tree.parseForm_eq_ok_iff.1 h
  have hstage : ∀ s ∈ t.stages, s ≠ [] ∧ ∀ d ∈ s, d.Sound := by
    intro s hs
    obtain ⟨raw, -, hraw⟩ := exists_left_of_mem hread hs
    exact Stage.sound_of_parseStage hraw
  refine ⟨⟨?_, fun s hs => (hstage s hs).1, hlast⟩, fun s hs => (hstage s hs).2⟩
  rw [Tree.size, ← hread.length_eq]
  exact hlength

/-! ### Names -/

namespace Tree

variable {known : String → Bool} {signature : String} {t : Tree}

lemma checkNames_eq_ok_iff :
    checkNames known signature t = .ok () ↔
      (∀ d ∈ t.stages.flatten, d.label?.isSome = true → d.name = labelledName) ∧
        ∀ d ∈ t.stages.flatten, known d.name = true := by
  unfold checkNames
  simp only
  split
  · next d hd =>
    have hfound := List.find?_some hd
    have hmem := List.mem_of_find?_eq_some hd
    simp only [Bool.and_eq_true, bne_iff_ne] at hfound
    refine ⟨fun h => by simp at h, fun h => ?_⟩
    exact absurd (h.1 d hmem hfound.1) hfound.2
  · next hnone =>
    rw [List.find?_eq_none] at hnone
    have hlabel : ∀ d ∈ t.stages.flatten, d.label?.isSome = true → d.name = labelledName := by
      intro d hd hsome
      simpa [hsome] using hnone d hd
    split
    · next hall => exact ⟨fun _ => ⟨hlabel, List.all_eq_true.1 hall⟩, fun _ => rfl⟩
    · next hall =>
      refine ⟨fun h => by simp at h, fun h => ?_⟩
      exact absurd (List.all_eq_true.2 h.2) hall

lemma parse_eq_ok_iff {known : Option (String → Bool)} :
    parse known signature = .ok t ↔ parseForm signature = .ok t ∧
      ∀ names ∈ known, checkNames names signature t = .ok () := by
  rw [parse]
  cases hform : parseForm signature with
  | error e => simp [bind, Except.bind]
  | ok u =>
    rcases known with _ | names
    · simp [bind, Except.bind, pure, Except.pure]
    · cases hcheck : checkNames names signature u with
      | error e =>
        simp only [bind, Except.bind, hcheck, Option.mem_def, Option.some.injEq, forall_eq']
        refine ⟨fun h => by simp at h, fun h => ?_⟩
        rw [← Except.ok.inj h.1, hcheck] at h
        simp at h
      | ok _ =>
        simp only [bind, Except.bind, hcheck, pure, Except.pure, Option.mem_def,
          Option.some.injEq, forall_eq', Except.ok.injEq]
        refine ⟨fun h => ⟨h, by rw [← h, hcheck]⟩, fun h => h.1⟩

lemma parse_eq_error {known : Option (String → Bool)} {e : SignatureFault}
    (h : parseForm signature = .error e) : parse known signature = .error e := by
  rw [parse]
  rw [h]
  rfl

end Tree

end CallContracts
