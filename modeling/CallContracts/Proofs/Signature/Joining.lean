import CallContracts.Proofs.Signature.Spelling

/-!
Texts as joins of whole pieces.

A text is whole under a delimiter if splitting leaves it in one piece.

* `Signature.splitText_eq_ok_iff`: a text splits into parts exactly if it is their join and each of
  them can stand between two delimiters, so `Signature.splitText_eq_singleton_iff` says which texts
  are whole;
* `Signature.splitText_join`: **splitting and joining are inverse to each other**, and what cannot
  be split is no join of whole texts.
-/

namespace CallContracts.Signature

variable {d text part : String} {parts : List String} {f : SignatureFault}

/-- The delimiters between stages, between the entries of a stage and between the arguments of a
type. -/
def delimiters : List String := ["=>", ",", ";"]

lemma isDelimiter_of_mem (hd : d ∈ delimiters) : IsDelimiter d.toList := by
  simp only [delimiters, List.mem_cons, List.not_mem_nil, or_false] at hd
  rcases hd with rfl | rfl | rfl
  · exact isDelimiter_arrow
  · exact isDelimiter_comma
  · exact isDelimiter_semicolon

/-! ### Parts as texts -/

lemma splitText_eq_ok_iff_split :
    splitText d text = .ok parts ↔ split d.toList text.toList = .ok (parts.map String.toList) := by
  rw [splitText]
  constructor
  · intro h
    obtain ⟨ps, hps, rfl⟩ := exists_of_map_ok h
    rw [split_of_pieces hps]
    simp [Function.comp_def]
  · intro h
    rw [pieces_of_split h]
    simp [Functor.map, Except.map, Function.comp_def]

/-- **A text splits into parts** exactly if it is their join and each of them can stand between two
delimiters. -/
lemma splitText_eq_ok_iff (hd : IsDelimiter d.toList) :
    splitText d text = .ok parts ↔
      parts ≠ [] ∧ (∀ p ∈ parts, IsPiece d.toList p.toList) ∧ d.intercalate parts = text := by
  rw [splitText_eq_ok_iff_split, split_eq_ok_iff hd, ← String.toList_intercalate,
    String.toList_inj, eq_comm (a := text)]
  simp

/-- A text is whole if it can stand between two delimiters. -/
lemma splitText_eq_singleton_iff (hd : IsDelimiter d.toList) :
    splitText d part = .ok [part] ↔ IsPiece d.toList part.toList := by
  rw [splitText_eq_ok_iff hd]
  simp

/-- A text that cannot be split is named in the fault. -/
lemma subject_of_splitText (h : splitText d text = .error f) : f.subject = some text := by
  rw [splitText, pieces] at h
  split at h
  · simp [Functor.map, Except.map] at h
  all_goals
    obtain rfl := Except.error.inj h
    simp

/-! ### The law -/

/-- **Splitting and joining are inverse to each other**, for each of the delimiters. The parts of a
text that splits give the text back when they are joined; their brackets pair up and each of them is
whole. Conversely one or more texts that are whole split into themselves when they are joined. So a
text cannot be split exactly if it is no such join, and then the fault names it. -/
theorem splitText_join (hd : d ∈ delimiters) :
    (∀ text parts, splitText d text = .ok parts →
      parts ≠ [] ∧ d.intercalate parts = text ∧
        ∀ p ∈ parts, IsBalanced p.toList ∧ splitText d p = .ok [p]) ∧
    (∀ parts, parts ≠ [] → (∀ p ∈ parts, splitText d p = .ok [p]) →
      splitText d (d.intercalate parts) = .ok parts) ∧
    ∀ text, (∃ f, splitText d text = .error f ∧ f.subject = some text) ↔
      ¬ ∃ parts, parts ≠ [] ∧ (∀ p ∈ parts, splitText d p = .ok [p]) ∧
        d.intercalate parts = text := by
  have hdelimiter := isDelimiter_of_mem hd
  simp only [splitText_eq_singleton_iff hdelimiter]
  refine ⟨fun text parts h => ?_, fun parts hne hparts => ?_, fun text => ?_⟩
  · obtain ⟨hne, hparts, hjoin⟩ := (splitText_eq_ok_iff hdelimiter).1 h
    exact ⟨hne, hjoin, fun p hp => ⟨(hparts p hp).balanced, hparts p hp⟩⟩
  · exact (splitText_eq_ok_iff hdelimiter).2 ⟨hne, hparts, rfl⟩
  · simp only [← splitText_eq_ok_iff hdelimiter]
    cases h : splitText d text with
    | error f => simp [subject_of_splitText h]
    | ok parts => simp

/-- Two stages, of which the first ends with an arrow that closes its bracket, and a text that
begins with half an arrow. -/
theorem splitText_join_arrow :
    "=>" ∈ delimiters ∧
      splitText "=>" "map<a=>" = .ok ["map<a=>"] ∧
      splitText "=>" " any" = .ok [" any"] ∧
      splitText "=>" "map<a=>=> any" = .ok ["map<a=>", " any"] ∧
      ∃ f, splitText "=>" ">any" = .error f ∧ f.subject = some ">any" := by
  have hd : "=>" ∈ delimiters := by decide
  obtain ⟨-, hjoin, hfault⟩ := splitText_join hd
  have hfirst : splitText "=>" "map<a=>" = .ok ["map<a=>"] := by rfl
  have hsecond : splitText "=>" " any" = .ok [" any"] := by rfl
  refine ⟨hd, hfirst, hsecond, hjoin ["map<a=>", " any"] (by simp)
    (List.forall_mem_cons.2 ⟨hfirst, List.forall_mem_singleton.2 hsecond⟩), ?_⟩
  refine (hfault ">any").2 ?_
  rintro ⟨parts, hne, hparts, htext⟩
  have hsplit := hjoin parts hne hparts
  rw [htext] at hsplit
  have hstray : splitText "=>" ">any" = .error ⟨.strayClose 0, some ">any"⟩ := by rfl
  rw [hstray] at hsplit
  simp at hsplit

end CallContracts.Signature
