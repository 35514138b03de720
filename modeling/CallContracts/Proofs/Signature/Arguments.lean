import CallContracts.Proofs.Signature.Canonical
import CallContracts.Proofs.Signature.Grammar

/-!
Type expressions with arguments.

* `Descriptor.parse_enclosed`: a name with brackets behind it reads as what is split off between
  them;
* `Descriptor.applied`: the written form of a type with arguments;
* `Descriptor.parse_applied`: it reads as the type with the trimmed arguments, if the brackets of
  each pair up and no semicolon stands outside of them;
* `Signature.Grammar.nested_applied`: then the whole can be an argument in turn, to any depth;
* `Descriptor.of_mem_arguments`: the arguments that are read off an expression can be arguments
  again, and are shorter than the expression.
-/

namespace CallContracts

open Signature Signature.Grammar Text

namespace Descriptor

/-- The written form of a type with arguments. -/
def applied (name : String) (arguments : List String) : String :=
  typeText ⟨name, .arguments arguments, false⟩

/-- Trimming changes nothing about what an expression reads as. -/
lemma parse_trimText_eq_ok_iff {text : String} {d : Descriptor} :
    parse (trimText text) = .ok d ↔ parse text = .ok d := by
  rw [trimText, parse_eq_ok_iff_reads, trim_trim, ← parse_eq_ok_iff_reads, String.ofList_toList]

/-- **A name with brackets behind it reads as the name with what is split off between them**, and is
refused just as that is. -/
lemma parse_enclosed {name : String} (hname : PlainName name) (inside : String) :
    parse (name ++ "<" ++ inside ++ ">") =
      (splitArguments inside.toList).map fun types => ⟨name, .arguments types, false⟩ := by
  have htext : trim (name ++ "<" ++ inside ++ ">").toList =
      trimLeft name.toList ++ '<' :: (inside.toList ++ ['>']) := by
    rw [← trim_arguments]
    simp
  have htrimmed : String.ofList (trim name.toList) = name := by
    rw [hname.trimmed, String.ofList_toList]
  have hchars : ∀ c ∈ trimLeft name.toList, c ∉ ['<', '>', '[', ']', ':', ','] :=
    fun c hc => hname.chars c (List.dropWhile_subset _ hc)
  have hplain : Grammar.Name (trimLeft name.toList) := by
    refine name_iff.2 fun c hc => ?_
    have hnot := hchars c hc
    simp only [List.mem_cons, not_or] at hnot
    simp [isNameChar, hnot]
  obtain ⟨htake, hdrop⟩ := hplain.span (b := inside.toList ++ ['>']) (c := '<') (by decide)
  have hunit : trimLeft name.toList ++ '<' :: (inside.toList ++ ['>']) ≠ unitName.toList := by
    intro heq
    have hopen : '<' ∈ unitName.toList := heq ▸ by simp
    exact absurd hopen (by decide)
  have hbare : unbracket? (trimLeft name.toList ++ '<' :: (inside.toList ++ ['>'])) = none := by
    cases hleft : trimLeft name.toList with
    | nil => rfl
    | cons c cs =>
      have hopen : c ≠ '[' := by
        rintro rfl
        exact absurd (hchars '[' (by simp [hleft])) (by simp)
      rw [List.cons_append, unbracket?]
      simpa using hopen
  rw [parse]
  simp only [htext, hunit, hbare, if_false]
  rw [if_neg (by simp), parseExpression]
  simp only [htake, hdrop, if_true, List.getLast?_concat, List.dropLast_concat, trim_trimLeft,
    htrimmed]
  cases splitArguments inside.toList <;> rfl

/-- **A type with arguments reads as what it says**, but for blanks around the arguments. -/
lemma parse_applied {name : String} {arguments : List String} (hname : PlainName name)
    (hne : arguments ≠ []) (hnested : ∀ t ∈ arguments, Nested [';'] t.toList) :
    parse (applied name arguments) = .ok ⟨name, .arguments (arguments.map trimText), false⟩ := by
  have hsplit : splitArguments (";".intercalate arguments).toList =
      .ok (arguments.map trimText) := by
    rcases arguments with _ | ⟨t, ts⟩
    · exact absurd rfl hne
    refine splitArguments_eq_ok_iff.2 ⟨t.toList, ts.map String.toList, ?_, ?_, ?_⟩
    · rw [← List.map_cons, List.forall_mem_map]
      exact hnested
    · rw [String.toList_intercalate]
      rfl
    · simp [trimmed, trimText, Function.comp_def]
  rw [applied, typeText, parse_enclosed hname, hsplit]
  rfl

end Descriptor

namespace Signature.Grammar

/-- Plain characters may stand in front of a nested text. -/
lemma Nested.append_plain {stops a cs : List Char}
    (ha : ∀ c ∈ a, c ≠ '<' ∧ c ≠ '>' ∧ c ∉ stops) (h : Nested stops cs) :
    Nested stops (a ++ cs) := by
  induction a with
  | nil => exact h
  | cons c a ih =>
    rw [List.forall_mem_cons] at ha
    exact .plain ha.1.1 ha.1.2.1 ha.1.2.2 (ih ha.2)

lemma nested_plain {stops cs : List Char} (h : ∀ c ∈ cs, c ≠ '<' ∧ c ≠ '>' ∧ c ∉ stops) :
    Nested stops cs := by
  simpa using Nested.append_plain h .nil

/-- A type with arguments can be an argument. -/
lemma nested_applied {name : String} {arguments : List String}
    (hname : ∀ c ∈ name.toList, c ∉ ['<', '>', ';'])
    (hnested : ∀ t ∈ arguments, Nested [';'] t.toList) :
    Nested [';'] (Descriptor.applied name arguments).toList := by
  have hinner : Nested [] ([';'].intercalate (arguments.map String.toList)) := by
    rw [nested_nil_iff]
    refine balanced_intercalate (by decide) fun p hp => ?_
    obtain ⟨t, ht, rfl⟩ := List.mem_map.1 hp
    exact (nested_singleton_iff.1 (hnested t ht)).balanced
  have hwritten : (Descriptor.applied name arguments).toList =
      name.toList ++ '<' :: ([';'].intercalate (arguments.map String.toList) ++ '>' :: []) := by
    simp [Descriptor.applied, Descriptor.typeText, String.toList_intercalate]
  rw [hwritten]
  refine .append_plain (fun c hc => ?_) (.group hinner .nil)
  simpa [not_or] using hname c hc

/-! ### Arguments that were read -/

lemma length_le_intercalate {d q : List Char} {ps : List (List Char)} (h : q ∈ ps) :
    q.length ≤ (d.intercalate ps).length := by
  obtain ⟨i, hi⟩ := List.mem_iff_getElem?.1 h
  have hmem : q ∈ ps.intersperse d :=
    List.mem_of_getElem? (List.getElem?_intersperse_two_mul.trans hi)
  exact (List.infix_of_mem_flatten hmem).length_le

/-- The arguments between the brackets of an expression. -/
lemma Expression.of_mem_arguments {cs : List Char} {name part : String} {detail : Detail}
    {optional : Bool} (h : Expression cs name detail)
    (hpart : part ∈ ((⟨name, detail, optional⟩ : Descriptor).arguments?).getD []) :
    Nested [';'] part.toList ∧ part.length < cs.length := by
  cases h with
  | plain _ => simp [Descriptor.arguments?] at hpart
  | label _ => simp [Descriptor.arguments?] at hpart
  | @arguments a p ps _ hall =>
    obtain ⟨q, hq, rfl⟩ := List.mem_map.1 hpart
    have hpiece := nested_singleton_iff.1 (hall q hq)
    have htrim := length_trim_le q
    have hjoin := length_le_intercalate (d := [';']) hq
    rw [trimmed, String.toList_ofList, String.length_ofList]
    refine ⟨nested_singleton_iff.2 (hpiece.of_padded isDelimiter_semicolon (padded_trim q)), ?_⟩
    simp only [List.length_append, List.length_cons, List.length_nil]
    omega

end Signature.Grammar

/-- **The arguments of an expression** can be arguments again, and are shorter than it. -/
lemma Descriptor.of_mem_arguments {text part : String} {d : Descriptor}
    (h : parse text = .ok d) (hpart : part ∈ d.arguments?.getD []) :
    Nested [';'] part.toList ∧ part.length < text.length := by
  have hreads : Reads (trim text.toList) d := by
    rwa [← parse_eq_ok_iff_reads, String.ofList_toList]
  have htrim := length_trim_le text.toList
  rw [String.length_toList] at htrim
  generalize trim text.toList = cs at hreads htrim
  cases hreads with
  | unit => simp [Descriptor.arguments?, Descriptor.unit] at hpart
  | @bracketed i name detail _ hexpression =>
    obtain ⟨hnested, hlength⟩ := hexpression.of_mem_arguments hpart
    have hinner := length_trim_le i
    simp only [List.length_append, List.length_cons, List.length_nil] at htrim
    exact ⟨hnested, by omega⟩
  | bare _ _ _ hexpression =>
    obtain ⟨hnested, hlength⟩ := hexpression.of_mem_arguments hpart
    exact ⟨hnested, hlength.trans_le htrim⟩

end CallContracts
