import CallContracts.Number.Numeral
import CallContracts.Proofs.Text.Padding

/-!
Reading the decimal text of a whole number back.

* `Numeral.takeDigits_of_digits`: a run of digits is taken as a whole;
* `Text.numberOf_toDigits`: it stands for the number that was written;
* `Binary64.parse?_toString`: so the text of a whole number reads as the floating-point number
  nearest to it.
-/

namespace CallContracts

open Text

/-! ### Digits -/

/-- The value of a digit of the first script. -/
lemma Text.digitValue?_of_isDigit {c : Char} (h : c.isDigit = true) :
    digitValue? c = some (c.toNat - '0'.toNat) := by
  have hrange : 48 ≤ c.toNat ∧ c.toNat ≤ 57 := by
    simp only [Char.isDigit, Bool.and_eq_true, decide_eq_true_eq] at h
    exact ⟨h.1, h.2⟩
  have hfirst : (48 ≤ c.toNat && c.toNat < 48 + 10) = true := by
    simp only [Bool.and_eq_true, decide_eq_true_eq]
    omega
  simp only [digitValue?, digitZeros, List.find?_cons, hfirst]
  rfl

lemma Text.isBlank_of_isDigit {c : Char} (h : c.isDigit = true) : isBlank c = false := by
  simp only [Char.isDigit, Bool.and_eq_true, decide_eq_true_eq] at h
  have hrange : 48 ≤ c.toNat ∧ c.toNat ≤ 57 := ⟨h.1, h.2⟩
  simp only [isBlank, Bool.or_eq_false_iff, Bool.and_eq_false_imp, beq_eq_false_iff_ne,
    decide_eq_true_eq, decide_eq_false_iff_not]
  omega

lemma toLower_of_isDigit {c : Char} (h : c.isDigit = true) : c.toLower = c := by
  simp only [Char.isDigit, Bool.and_eq_true, decide_eq_true_eq] at h
  refine dif_neg ?_
  rintro ⟨hupper, -⟩
  exact absurd (UInt32.le_trans hupper h.2) (by decide)

/-- A run of digits is taken as a whole. -/
lemma Numeral.takeDigits_of_digits {cs : List Char} (h : ∀ c ∈ cs, c.isDigit = true) :
    takeDigits digitValue? cs = (cs.map fun c => c.toNat - '0'.toNat, []) := by
  induction cs with
  | nil => rfl
  | cons c cs ih =>
    rw [List.forall_mem_cons] at h
    cases cs with
    | nil => simp [takeDigits, digitValue?_of_isDigit h.1]
    | cons d ds =>
      have hd : d ≠ '_' := by
        rintro rfl
        exact absurd (h.2 '_' List.mem_cons_self) (by decide)
      rw [takeDigits, digitValue?_of_isDigit h.1]
      simp only [hd, if_false, ih h.2, List.map_cons]

lemma isDigit_of_mem_toDigits {m : ℕ} {c : Char} (h : c ∈ Nat.toDigits 10 m) :
    c.isDigit = true :=
  Nat.isDigit_of_mem_toDigits (by omega) le_rfl h

/-- The digits of a number stand for it. -/
lemma Text.numberOf_toDigits (m : ℕ) :
    numberOf ((Nat.toDigits 10 m).map fun c => c.toNat - '0'.toNat) = m := by
  have h := Nat.ofDigitChars_toDigits (b := 10) (n := m) (by omega) le_rfl
  rwa [numberOf, List.foldl_map]

/-! ### Whole numbers -/

lemma toList_toString_int (k : ℤ) :
    (toString k).toList = (if k < 0 then ['-'] else []) ++ Nat.toDigits 10 k.natAbs := by
  rw [Int.toString_eq_repr, Int.repr_eq_if]
  by_cases hk : 0 ≤ k
  · rw [if_pos hk, if_neg (by omega), Nat.repr_eq_ofList_toDigits, String.toList_ofList,
      show k.toNat = k.natAbs by omega]
    rfl
  · rw [if_neg hk, if_pos (by omega), Nat.repr_eq_ofList_toDigits,
      show (-k).toNat = k.natAbs by omega]
    simp

/-- The text of a whole number is made of digits and perhaps a sign. -/
lemma eq_sign_or_isDigit_of_mem {k : ℤ} {c : Char} (hc : c ∈ (toString k).toList) :
    c = '-' ∨ c.isDigit = true := by
  rw [toList_toString_int, List.mem_append] at hc
  rcases hc with hc | hc
  · split_ifs at hc
    · exact .inl (List.mem_singleton.1 hc)
    · simp at hc
  · exact .inr (isDigit_of_mem_toDigits hc)

/-- The sign of a whole number comes off first. -/
lemma Numeral.takeSign_toString (k : ℤ) :
    takeSign (toString k).toList = (decide (k < 0), Nat.toDigits 10 k.natAbs) := by
  rw [toList_toString_int]
  by_cases hk : k < 0
  · simp [hk, takeSign]
  · simp only [hk, if_false, List.nil_append, decide_false]
    rcases hds : Nat.toDigits 10 k.natAbs with _ | ⟨c, cs⟩
    · rfl
    · have hc : c.isDigit = true := isDigit_of_mem_toDigits (by rw [hds]; exact List.mem_cons_self)
      rw [takeSign]
      · rintro cs' h
        obtain ⟨rfl, -⟩ := List.cons.inj h
        exact absurd hc (by decide)
      · rintro cs' h
        obtain ⟨rfl, -⟩ := List.cons.inj h
        exact absurd hc (by decide)

lemma Text.trim_of_forall {cs : List Char} (h : ∀ c ∈ cs, isBlank c = false) : trim cs = cs := by
  rcases List.eq_nil_or_concat cs with rfl | ⟨ds, d, rfl⟩
  · rfl
  · rw [List.concat_eq_append] at h ⊢
    have hleft : trimLeft (ds ++ [d]) = ds ++ [d] := by
      rcases hcs : ds ++ [d] with _ | ⟨c, cs⟩
      · rfl
      · exact trimLeft_cons (h c (by rw [hcs]; exact List.mem_cons_self)) cs
    rw [trim, hleft, trimRight_concat (h d (by simp))]

/-- No blank stands around the text of a whole number. -/
lemma Text.trim_toString (k : ℤ) : trim (toString k).toList = (toString k).toList := by
  refine trim_of_forall fun c hc => ?_
  rcases eq_sign_or_isDigit_of_mem hc with rfl | hdigit
  · decide
  · exact isBlank_of_isDigit hdigit

/-- The text of a whole number is a numeral. -/
lemma Numeral.parse_toString (k : ℤ) :
    parse digitValue? (toString k).toList = some ⟨decide (k < 0), k.natAbs, 0, false⟩ := by
  have htake : takeUnsigned digitValue? (decide (k < 0)) (Nat.toDigits 10 k.natAbs) =
      some (⟨decide (k < 0), k.natAbs, 0, false⟩, []) := by
    have hne : Nat.toDigits 10 k.natAbs ≠ [] := Nat.toDigits_ne_nil
    rw [takeUnsigned, takeDigits_of_digits fun c hc => isDigit_of_mem_toDigits hc]
    have hnumber := numberOf_toDigits k.natAbs
    simp_all [takeExponent]
  rw [parse, takeSign_toString]
  simp only [htake]

/-- **The text of a whole number reads as the floating-point number** nearest to it. -/
theorem Binary64.parse?_toString (k : ℤ) :
    parse? (toString k) = some (ofScientific (decide (k < 0)) k.natAbs 0) := by
  have hletter : ∀ name : String, (∃ c ∈ name.toList, c.isDigit = false) →
      String.ofList ((Nat.toDigits 10 k.natAbs).map Char.toLower) ≠ name := by
    rintro name ⟨c, hc, hdigit⟩ rfl
    rw [String.toList_ofList] at hc
    obtain ⟨c', hc', rfl⟩ := List.mem_map.1 hc
    have hc'' := isDigit_of_mem_toDigits hc'
    rw [toLower_of_isDigit hc'', hc''] at hdigit
    exact Bool.noConfusion hdigit
  rw [parse?, trim_toString, Numeral.takeSign_toString, Numeral.parse_toString]
  simp only [hletter "inf" ⟨'i', by decide, by decide⟩, hletter "nan" ⟨'n', by decide, by decide⟩,
    hletter "infinity" ⟨'i', by decide, by decide⟩, decide_false, Bool.or_false, if_false,
    Bool.false_eq_true]
  rfl

end CallContracts
