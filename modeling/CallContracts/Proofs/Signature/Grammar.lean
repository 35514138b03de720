import CallContracts.Enforcement.Signing
import CallContracts.Proofs.Signature.Soundness

/-!
The grammar of signatures, on its own and as what reading accepts.

The grammar is given by joins and by nesting: a signature is a join of stages, a stage a join of
tokens, and inside of `<` and `>` any text stands whose own brackets pair up. It mentions no
scanning, no depth and no order of checks.

* `Signature.Grammar.nested_iff_closes`: nesting is what counting the open brackets decides;
* `Signature.Grammar.parse_eq_ok_iff_reads`: which tokens read, and as what;
* `Signature.Grammar.parseStage_eq_ok_iff`: which stages read;
* `Signature.read_accepts_grammar`: **reading accepts exactly the grammar**.
-/

namespace CallContracts

open Signature Text

namespace Signature.Grammar

/-! ### Nested texts -/

/-- The texts whose brackets pair up and that have none of some characters outside of them. -/
inductive Nested : List Char → List Char → Prop
  | nil {stops : List Char} : Nested stops []
  | plain {stops cs : List Char} {c : Char} :
    c ≠ '<' → c ≠ '>' → c ∉ stops → Nested stops cs → Nested stops (c :: cs)
  | group {stops inner cs : List Char} :
    Nested [] inner → Nested stops cs → Nested stops ('<' :: (inner ++ '>' :: cs))

/-- The bracket around a text that lies inside of others is closed somewhere. -/
lemma exists_group {stop : Char → Bool} {depth k : Nat} {cs : List Char}
    (h : closes stop (depth + (k + 1)) cs = true) :
    ∃ inner rest, cs = inner ++ '>' :: rest ∧ closes (fun _ => false) depth inner = true ∧
      closes stop k rest = true := by
  induction cs generalizing depth with
  | nil => simp [closes] at h
  | cons c cs ih =>
    by_cases hopen : c = '<'
    · subst hopen
      rw [closes_open, show depth + (k + 1) + 1 = depth + 1 + (k + 1) by omega] at h
      obtain ⟨inner, rest, rfl, hinner, hrest⟩ := ih h
      exact ⟨'<' :: inner, rest, rfl, by rwa [closes_open], hrest⟩
    · by_cases hclose : c = '>'
      · subst hclose
        rw [← Nat.add_assoc, closes_close] at h
        rcases depth with _ | depth
        · rw [Nat.zero_add] at h
          exact ⟨[], cs, rfl, rfl, h⟩
        · rw [show depth + 1 + k = depth + (k + 1) by omega] at h
          obtain ⟨inner, rest, rfl, hinner, hrest⟩ := ih h
          exact ⟨'>' :: inner, rest, rfl, by rwa [closes_close], hrest⟩
      · rw [closes_other hopen hclose, Bool.and_eq_true] at h
        obtain ⟨inner, rest, rfl, hinner, hrest⟩ := ih h.2
        refine ⟨c :: inner, rest, rfl, ?_, hrest⟩
        rw [closes_other hopen hclose, hinner]
        simp

lemma contains_nil : List.contains ([] : List Char) = fun _ => false := by
  funext c
  simp

/-- Reading brackets by depth and taking groups off one by one come to the same. -/
lemma nested_iff_closes {stops cs : List Char} :
    Nested stops cs ↔ closes stops.contains 0 cs = true := by
  constructor
  · intro h
    induction h with
    | nil => rfl
    | plain hopen hclose hstop _ ih =>
      rw [closes_other hopen hclose, ih]
      simpa using hstop
    | @group stops inner cs _ _ ihinner ih =>
      rw [contains_nil] at ihinner
      have hinside : closes stops.contains (0 + (0 + 1)) (inner ++ '>' :: cs) = _ :=
        closes_inside ihinner 0 _
      rw [closes_open, hinside, closes_close, ih]
  · intro h
    induction hn : cs.length using Nat.strong_induction_on generalizing stops cs with
    | _ n ih =>
      rcases cs with _ | ⟨c, cs⟩
      · exact .nil
      · by_cases hopen : c = '<'
        · subst hopen
          rw [closes_open] at h
          have hgroup : closes stops.contains (0 + (0 + 1)) cs = true := h
          obtain ⟨inner, rest, rfl, hinner, hrest⟩ := exists_group hgroup
          simp only [List.length_cons, List.length_append] at hn
          rw [← contains_nil] at hinner
          exact .group (ih _ (by omega) hinner rfl) (ih _ (by omega) hrest rfl)
        · by_cases hclose : c = '>'
          · subst hclose
            simp [closes] at h
          · rw [closes_other hopen hclose, Bool.and_eq_true] at h
            rw [List.length_cons] at hn
            exact .plain hopen hclose (by simpa using h.1) (ih _ (by omega) h.2 rfl)

lemma nested_nil_iff {cs : List Char} : Nested [] cs ↔ IsBalanced cs := by
  rw [nested_iff_closes, contains_nil, IsBalanced]

lemma nested_singleton_iff {c : Char} {cs : List Char} : Nested [c] cs ↔ IsPiece [c] cs := by
  have h : List.contains [c] = stopsAt [c] := by
    funext e
    rw [Bool.eq_iff_iff]
    simpa [stopsAt] using eq_comm
  rw [nested_iff_closes, h, IsPiece]

/-! ### Joins -/

/-- Texts whose brackets pair up fall into parts without one more character outside of them. -/
lemma Nested.exists_parts {stops cs : List Char} (h : Nested stops cs) (c : Char) :
    ∃ p ps, (∀ q ∈ p :: ps, Nested (c :: stops) q) ∧ cs = [c].intercalate (p :: ps) := by
  have hjoin : ∀ (as p : List Char) (ps : List (List Char)),
      as ++ [c].intercalate (p :: ps) = [c].intercalate ((as ++ p) :: ps) := by
    intro as p ps
    cases ps <;> simp [List.intercalate_cons_cons]
  induction h with
  | nil => exact ⟨[], [], by simpa using Nested.nil, by simp⟩
  | @plain stops cs e hopen hclose hstop _ ih =>
    obtain ⟨p, ps, hps, hcs⟩ := ih
    rw [List.forall_mem_cons] at hps
    by_cases hec : e = c
    · -- a new part begins
      refine ⟨[], p :: ps, ?_, ?_⟩
      · rw [List.forall_mem_cons, List.forall_mem_cons]
        exact ⟨.nil, hps⟩
      · rw [List.intercalate_cons_cons, hcs, hec]
        rfl
    · refine ⟨e :: p, ps, ?_, by rw [hcs]; exact hjoin [e] p ps⟩
      rw [List.forall_mem_cons]
      exact ⟨.plain hopen hclose (by simp [hec, hstop]) hps.1, hps.2⟩
  | @group stops inner cs hinner _ _ ih =>
    obtain ⟨p, ps, hps, hcs⟩ := ih
    rw [List.forall_mem_cons] at hps
    refine ⟨'<' :: (inner ++ '>' :: p), ps, ?_, ?_⟩
    · rw [List.forall_mem_cons]
      exact ⟨.group hinner hps.1, hps.2⟩
    · have := hjoin ('<' :: (inner ++ ['>'])) p ps
      simpa [hcs] using this

/-! ### The grammar -/

/-- A text without the blanks at both ends. -/
def trimmed (cs : List Char) : String :=
  String.ofList (trim cs)

/-- Nothing in a text begins a label or arguments. -/
def Name (cs : List Char) : Prop :=
  ∀ c ∈ cs, c ≠ '<' ∧ c ≠ ':'

/-- The expressions without brackets around them, each with its name and with what it says besides:
a name; a name and, behind its first `:`, a label; a name and, between its first `<` and a last `>`,
the parts of a text whose brackets pair up. -/
inductive Expression : List Char → String → Detail → Prop
  | plain {cs : List Char} : Name cs → Expression cs (trimmed cs) .plain
  | label {a b : List Char} :
    Name a → Expression (a ++ ':' :: b) (trimmed a) (.label (trimmed b))
  | arguments {a p : List Char} {ps : List (List Char)} :
    Name a → (∀ q ∈ p :: ps, Nested [';'] q) →
      Expression (a ++ '<' :: ([';'].intercalate (p :: ps) ++ ['>'])) (trimmed a)
        (.arguments ((p :: ps).map trimmed))

/-- What a trimmed token says: `()`, an expression in brackets, or one without. -/
inductive Reads : List Char → Descriptor → Prop
  | unit : Reads unitName.toList .unit
  | bracketed {i : List Char} {name : String} {detail : Detail} :
    trim i ≠ [] → Expression (trim i) name detail → Reads ('[' :: (i ++ [']'])) ⟨name, detail, true⟩
  | bare {cs : List Char} {name : String} {detail : Detail} :
    cs ≠ [] → cs ≠ unitName.toList → (∀ i, cs ≠ '[' :: (i ++ [']'])) → Expression cs name detail →
      Reads cs ⟨name, detail, false⟩

/-- A token between two commas: its brackets pair up, its name is known, and only one name takes a
label. -/
structure IsToken (known : String → Bool) (p : List Char) (d : Descriptor) : Prop where
  nested : Nested [','] p
  reads : Reads (trim p) d
  known : known d.name = true
  labelled : d.label?.isSome = true → d.name = labelledName

/-- A stage: tokens with commas between them, and `()` only alone. -/
def IsStage (known : String → Bool) (raw : List Char) (s : Stage) : Prop :=
  ∃ tokens, tokens ≠ [] ∧ raw = [','].intercalate tokens ∧
    List.Forall₂ (IsToken known) tokens s ∧
      ((∃ p ∈ tokens, trim p = unitName.toList) → tokens.length = 1)

/-- A signature: two or more stages with arrows between them, the last of which has one token. -/
def Derives (known : String → Bool) (text : String) (t : Tree) : Prop :=
  ∃ raws, text.toList = ['=', '>'].intercalate raws ∧ 2 ≤ raws.length ∧
    List.Forall₂ (IsStage known) raws t.stages ∧ ∃ d, t.stages.getLast? = some [d]

/-! ### Expressions -/

lemma splitArguments_eq_ok_iff {cs : List Char} {types : List String} :
    splitArguments cs = .ok types ↔ ∃ p ps, (∀ q ∈ p :: ps, Nested [';'] q) ∧
      cs = [';'].intercalate (p :: ps) ∧ types = (p :: ps).map trimmed := by
  constructor
  · intro h
    obtain ⟨parts, hparts, rfl⟩ := exists_of_map_ok h
    obtain ⟨hne, hall, hcs⟩ := (split_eq_ok_iff isDelimiter_semicolon).1 (split_of_pieces hparts)
    rcases parts with _ | ⟨p, ps⟩
    · exact absurd rfl hne
    · exact ⟨p, ps, fun q hq => nested_singleton_iff.2 (hall q hq), hcs, rfl⟩
  · rintro ⟨p, ps, hall, rfl, rfl⟩
    have hsplit : split [';'] ([';'].intercalate (p :: ps)) = .ok (p :: ps) :=
      (split_eq_ok_iff isDelimiter_semicolon).2
        ⟨by simp, fun q hq => nested_singleton_iff.1 (hall q hq), rfl⟩
    have hpieces : pieces ";" ([';'].intercalate (p :: ps)) = .ok (p :: ps) :=
      pieces_of_split hsplit
    rw [splitArguments, hpieces]
    rfl

section expressions

variable {a b body : List Char} {c : Char} {token : String} {optional : Bool} {d : Descriptor}

lemma name_iff : Name a ↔ ∀ c ∈ a, Descriptor.isNameChar c = true := by
  simp [Name, Descriptor.isNameChar]

/-- A name ends at the first character that cannot stand in it. -/
lemma Name.span (ha : Name a) (hc : Descriptor.isNameChar c = false) :
    (a ++ c :: b).takeWhile Descriptor.isNameChar = a ∧
      (a ++ c :: b).dropWhile Descriptor.isNameChar = c :: b := by
  rw [name_iff] at ha
  rw [List.takeWhile_append_of_pos ha, List.dropWhile_append_of_pos ha,
    List.takeWhile_cons_of_neg (by simp [hc]), List.dropWhile_cons_of_neg (by simp [hc])]
  simp

lemma Expression.parse (htrim : trim body = body) {name : String} {detail : Detail}
    (h : Expression body name detail) :
    Descriptor.parseExpression token optional body = .ok ⟨name, detail, optional⟩ := by
  rw [Descriptor.parseExpression]
  cases h with
  | plain hname =>
    have hdrop : body.dropWhile Descriptor.isNameChar = [] :=
      List.dropWhile_eq_nil_iff.2 (name_iff.1 hname)
    rw [hdrop, trimmed, htrim]
  | label hname =>
    obtain ⟨htake, hdrop⟩ := hname.span (c := ':') (by decide)
    rw [htake, hdrop]
    simp [trimmed]
  | @arguments a p ps hname hall =>
    obtain ⟨htake, hdrop⟩ := hname.span (c := '<') (by decide)
    have hsplit : splitArguments ([';'].intercalate (p :: ps)) = .ok ((p :: ps).map trimmed) :=
      splitArguments_eq_ok_iff.2 ⟨p, ps, hall, rfl, rfl⟩
    rw [htake, hdrop]
    simp only [if_true, List.getLast?_concat, List.dropLast_concat, hsplit]
    rfl

lemma exists_of_parseExpression (htrim : trim body = body)
    (h : Descriptor.parseExpression token optional body = .ok d) :
    ∃ name detail, Expression body name detail ∧ d = ⟨name, detail, optional⟩ := by
  have hname : Name (body.takeWhile Descriptor.isNameChar) :=
    name_iff.2 fun c hc => List.mem_takeWhile_imp hc
  have hspan : body.takeWhile Descriptor.isNameChar ++ body.dropWhile Descriptor.isNameChar =
      body := List.takeWhile_append_dropWhile
  rw [Descriptor.parseExpression] at h
  split at h
  · -- the name alone
    next hdrop =>
    rw [hdrop, List.append_nil] at hspan
    rw [hspan] at hname
    refine ⟨_, _, .plain hname, ?_⟩
    rw [← Except.ok.inj h, trimmed, htrim]
  · next c rest hdrop =>
    rw [hdrop] at hspan
    split at h
    · -- arguments
      next hopen =>
      split at h
      · next hlast =>
        obtain ⟨types, htypes, rfl⟩ := exists_of_map_ok (f := fun types => _) h
        obtain ⟨p, ps, hall, hinside, rfl⟩ := splitArguments_eq_ok_iff.1 htypes
        obtain ⟨inside, rfl⟩ := List.getLast?_eq_some_iff.1 hlast
        rw [List.dropLast_concat] at hinside
        rw [hopen, hinside] at hspan
        have hexpression := Expression.arguments hname hall
        rw [hspan] at hexpression
        exact ⟨_, _, hexpression, rfl⟩
      · simp at h
    · -- a label
      next hopen =>
      have hc : c = ':' := by
        have hnot := List.head?_dropWhile_not Descriptor.isNameChar body
        simp [hdrop, Descriptor.isNameChar, hopen] at hnot
        exact hnot
      rw [hc] at hspan
      have hexpression := Expression.label (b := rest) hname
      rw [hspan] at hexpression
      exact ⟨_, _, hexpression, (Except.ok.inj h).symm⟩

end expressions

/-! ### Tokens -/

section tokens

variable {cs i : List Char} {d : Descriptor}

lemma unbracket?_bracketed : Descriptor.unbracket? ('[' :: (i ++ [']'])) = some (trim i) := by
  simp [Descriptor.unbracket?]

lemma unbracket?_eq_none_iff :
    Descriptor.unbracket? cs = none ↔ ∀ i, cs ≠ '[' :: (i ++ [']']) := by
  constructor
  · rintro h i rfl
    rw [unbracket?_bracketed] at h
    simp at h
  · intro h
    by_contra hsome
    obtain ⟨inner, hinner⟩ := Option.ne_none_iff_exists'.1 hsome
    obtain ⟨i, hcs, -⟩ := Descriptor.exists_of_unbracket? hinner
    exact h i hcs

/-- **A text reads as a token** exactly when its trimmed form is one. -/
lemma parse_eq_ok_iff_reads :
    Descriptor.parse (String.ofList cs) = .ok d ↔ Reads (trim cs) d := by
  rw [Descriptor.parse]
  simp only [String.toList_ofList]
  constructor
  · intro h
    split at h
    · next hunit =>
      rw [hunit, ← Except.ok.inj h]
      exact .unit
    · next hunit =>
      rcases hbr : Descriptor.unbracket? (trim cs) with _ | inner
      · simp only [hbr] at h
        split at h
        · simp at h
        · next hne =>
          obtain ⟨name, detail, hexpression, rfl⟩ := exists_of_parseExpression (trim_trim cs) h
          exact .bare hne hunit (unbracket?_eq_none_iff.1 hbr) hexpression
      · simp only [hbr] at h
        split at h
        · simp at h
        · next hne =>
          obtain ⟨i, hcs, rfl⟩ := Descriptor.exists_of_unbracket? hbr
          obtain ⟨name, detail, hexpression, rfl⟩ := exists_of_parseExpression (trim_trim i) h
          rw [hcs]
          exact .bracketed hne hexpression
  · intro h
    generalize htrim : trim cs = core at h
    cases h with
    | unit => rfl
    | bracketed hne hexpression =>
      have hunit : unitName.toList = ['(', ')'] := by decide
      rw [if_neg (by simp [hunit]), unbracket?_bracketed]
      simp only [hne, if_false]
      exact hexpression.parse (trim_trim _)
    | bare hne hunit hbr hexpression =>
      rw [if_neg hunit, unbracket?_eq_none_iff.2 hbr]
      simp only [hne, if_false]
      exact hexpression.parse (by rw [← htrim, trim_trim])

end tokens

/-! ### Stages -/

section stages

variable {raw : List Char} {s : Stage} {signature : String}

/-- A text splits if its trimmed form does: blanks close no bracket. -/
lemma exists_split_of_trim {qs : List (List Char)} (h : split [','] (trim raw) = .ok qs) :
    ∃ ps, split [','] raw = .ok ps := by
  obtain ⟨-, hqs, htrim⟩ := (split_eq_ok_iff isDelimiter_comma).1 h
  have hbalanced : IsBalanced (trim raw) := by
    rw [htrim]
    exact balanced_intercalate (by decide) fun q hq => (hqs q hq).balanced
  have hraw : IsBalanced raw := isPiece_arrow_iff.1
    ((isPiece_arrow_iff.2 hbalanced).padded isDelimiter_arrow (padded_trim raw))
  obtain ⟨p, ps, hps, hjoin⟩ := (nested_nil_iff.2 hraw).exists_parts ','
  exact ⟨p :: ps, (split_eq_ok_iff isDelimiter_comma).2
    ⟨by simp, fun q hq => nested_singleton_iff.1 (hps q hq), hjoin⟩⟩

lemma Reads.ne_nil {cs : List Char} {d : Descriptor} (h : Reads cs d) : cs ≠ [] := by
  cases h with
  | unit => decide
  | bracketed _ _ => simp
  | bare hne _ _ _ => exact hne

/-- The tokens of a stage that splits. -/
lemma parseStage_of_split {tokens : List (List Char)} (h : split [','] raw = .ok tokens) :
    Tree.parseStage signature raw = .ok s ↔
      List.Forall₂ (fun p d => Reads (trim p) d) tokens s ∧
        ((∃ p ∈ tokens, trim p = unitName.toList) → tokens.length = 1) := by
  obtain ⟨qs, hqs, hmap⟩ := split_trim isDelimiter_comma h
  have hpieces : pieces "," (trim raw) = .ok qs := pieces_of_split hqs
  have hne : tokens ≠ [] := split_ne_nil h
  have hlength : (tokens.map trim).length = tokens.length := List.length_map _
  have hreads : (tokens.map trim).mapM (fun token => Descriptor.parse (String.ofList token)) =
      .ok s ↔ List.Forall₂ (fun p d => Reads (trim p) d) tokens s := by
    rw [mapM_eq_ok_iff, List.forall₂_map_left_iff]
    simp only [parse_eq_ok_iff_reads, trim_trim]
  have hcrowded : unitName.toList ∈ tokens.map trim ∧ 1 < (tokens.map trim).length ↔
      ¬ ((∃ p ∈ tokens, trim p = unitName.toList) → tokens.length = 1) := by
    have : 0 < tokens.length := List.length_pos_iff.2 hne
    rw [hlength, List.mem_map, Classical.not_imp]
    exact and_congr_right fun _ => by omega
  rw [Tree.parseStage]
  simp only [hpieces, hmap, bind, Except.bind]
  constructor
  · intro hparse
    split at hparse
    · simp at hparse
    · split at hparse
      · simp at hparse
      · split at hparse
        · simp at hparse
        · next hunit => exact ⟨hreads.1 hparse, not_not.1 (mt hcrowded.2 hunit)⟩
  · rintro ⟨hall, halone⟩
    have hentry : [] ∉ tokens.map trim := by
      intro hmem
      obtain ⟨p, hp, hblank⟩ := List.mem_map.1 hmem
      obtain ⟨d, -, hd⟩ := exists_right_of_mem hall hp
      exact hd.ne_nil hblank
    have hblank : trim raw ≠ [] := by
      intro hnil
      rw [hnil] at hqs
      have hqs' : qs = [[]] := (Except.ok.inj hqs).symm
      exact hentry (by rw [← hmap, hqs']; exact List.mem_singleton.2 rfl)
    rw [if_neg hblank, if_neg hentry, if_neg fun h => hcrowded.1 h halone]
    exact hreads.2 hall

/-- **A text reads as a stage** exactly when it is the join of tokens, with `()` only alone. -/
lemma parseStage_eq_ok_iff :
    Tree.parseStage signature raw = .ok s ↔ ∃ tokens, tokens ≠ [] ∧
      raw = [','].intercalate tokens ∧
      List.Forall₂ (fun p d => Nested [','] p ∧ Reads (trim p) d) tokens s ∧
        ((∃ p ∈ tokens, trim p = unitName.toList) → tokens.length = 1) := by
  constructor
  · intro h
    obtain ⟨tokens, hsplit⟩ : ∃ tokens, split [','] raw = .ok tokens := by
      have hparse := h
      rw [Tree.parseStage] at hparse
      cases hpieces : pieces "," (trim raw) with
      | error e =>
        simp only [hpieces, bind, Except.bind] at hparse
        split at hparse <;> simp at hparse
      | ok qs => exact exists_split_of_trim (split_of_pieces hpieces)
    obtain ⟨hne, hpieces, hraw⟩ := (split_eq_ok_iff isDelimiter_comma).1 hsplit
    obtain ⟨hreads, halone⟩ := (parseStage_of_split hsplit).1 h
    refine ⟨tokens, hne, hraw, (List.forall₂_and_left _ _).2 ⟨fun p hp => ?_, hreads⟩, halone⟩
    exact nested_singleton_iff.2 (hpieces p hp)
  · rintro ⟨tokens, hne, hraw, hall, halone⟩
    obtain ⟨hnested, hreads⟩ := (List.forall₂_and_left _ _).1 hall
    have hsplit : split [','] raw = .ok tokens := (split_eq_ok_iff isDelimiter_comma).2
      ⟨hne, fun p hp => nested_singleton_iff.1 (hnested p hp), hraw⟩
    exact (parseStage_of_split hsplit).2 ⟨hreads, halone⟩

end stages

/-! ### Signatures -/

section signatures

variable {known : String → Bool} {text : String} {t : Tree}

lemma balanced_of_isStage {raw : List Char} {s : Stage} (h : IsStage known raw s) :
    IsBalanced raw := by
  obtain ⟨tokens, -, rfl, hall, -⟩ := h
  refine balanced_intercalate (by decide) fun p hp => ?_
  obtain ⟨d, -, hd⟩ := exists_right_of_mem hall hp
  exact (nested_singleton_iff.1 hd.nested).balanced

/-- A stage of the grammar is a stage that reads, with names that pass. -/
lemma isStage_iff {raw : List Char} {s : Stage} :
    IsStage known raw s ↔ Tree.parseStage text raw = .ok s ∧
      ∀ d ∈ s, known d.name = true ∧ (d.label?.isSome = true → d.name = labelledName) := by
  rw [parseStage_eq_ok_iff]
  constructor
  · rintro ⟨tokens, hne, hraw, hall, halone⟩
    refine ⟨⟨tokens, hne, hraw, hall.imp fun p d h => ⟨h.nested, h.reads⟩, halone⟩, ?_⟩
    intro d hd
    obtain ⟨p, -, h⟩ := exists_left_of_mem hall hd
    exact ⟨h.known, h.labelled⟩
  · rintro ⟨⟨tokens, hne, hraw, hall, halone⟩, hnames⟩
    have hboth := (List.forall₂_and_left _ _).2 ⟨hnames, hall.flip⟩
    refine ⟨tokens, hne, hraw, hboth.flip.imp fun p d h => ?_, halone⟩
    exact ⟨h.2.1, h.2.2, h.1.1, h.1.2⟩

lemma forall₂_isStage_iff {raws : List (List Char)} :
    List.Forall₂ (IsStage known) raws t.stages ↔
      List.Forall₂ (fun raw s => Tree.parseStage text raw = .ok s) raws t.stages ∧
        Tree.checkNames known text t = .ok () := by
  rw [Tree.checkNames_eq_ok_iff, List.forall_mem_flatten, List.forall_mem_flatten]
  constructor
  · intro h
    refine ⟨h.imp fun raw s hs => (isStage_iff.1 hs).1, fun s hs d hd => ?_, fun s hs d hd => ?_⟩
    all_goals obtain ⟨raw, -, hraw⟩ := exists_left_of_mem h hs
    · exact (((@isStage_iff known text raw s).1 hraw).2 d hd).2
    · exact (((@isStage_iff known text raw s).1 hraw).2 d hd).1
  · rintro ⟨hread, hlabels, hknown⟩
    have hboth := (List.forall₂_and_left _ _).2
      ⟨fun (s : Stage) (hs : s ∈ t.stages) => hs, hread.flip⟩
    refine hboth.flip.imp fun raw s h => isStage_iff.2 ⟨h.2, fun d hd => ?_⟩
    exact ⟨hknown s h.1 d hd, hlabels s h.1 d hd⟩

/-- **Reading accepts exactly the grammar.** -/
lemma parse_eq_ok_iff_derives : Tree.parse (some known) text = .ok t ↔ Derives known text t := by
  rw [Tree.parse_eq_ok_iff, Tree.parseForm_eq_ok_iff]
  simp only [Option.mem_def, Option.some.injEq, forall_eq']
  constructor
  · rintro ⟨⟨raws, hraws, hlength, hread, hlast⟩, hnames⟩
    obtain ⟨-, -, htext⟩ := (split_eq_ok_iff isDelimiter_arrow).1 (split_of_pieces hraws)
    exact ⟨raws, htext, hlength, forall₂_isStage_iff.2 ⟨hread, hnames⟩, hlast⟩
  · rintro ⟨raws, htext, hlength, hstages, hlast⟩
    obtain ⟨hread, hnames⟩ := forall₂_isStage_iff.1 hstages
    refine ⟨⟨raws, pieces_of_split ?_, hlength, hread, hlast⟩, hnames⟩
    refine (split_eq_ok_iff isDelimiter_arrow).2 ⟨?_, fun raw hraw => ?_, htext⟩
    · rintro rfl
      simp at hlength
    · obtain ⟨s, -, hs⟩ := exists_right_of_mem hstages hraw
      exact isPiece_arrow_iff.2 (balanced_of_isStage hs)

end signatures

end Signature.Grammar

namespace Signature

/-- **Reading accepts exactly the grammar**: with some names known, a text reads as a tree exactly
when the grammar derives it with that tree, and a text that it derives with no tree ends with the
fault of a signature. -/
theorem read_accepts_grammar (known : String → Bool) (text : String) (w : World) :
    (∀ t, (read (some known) (.text text) w).outcome = .ok t ↔ Grammar.Derives known text t) ∧
      ((∃ f, read (some known) (.text text) w = ⟨.error (.fault (.signature f)), w, []⟩) ↔
        ∀ t, ¬ Grammar.Derives known text t) := by
  simp only [← Grammar.parse_eq_ok_iff_derives]
  rw [read_text]
  cases Tree.parse (some known) text <;> simp

end Signature
end CallContracts
