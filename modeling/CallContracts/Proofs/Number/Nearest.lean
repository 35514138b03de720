import CallContracts.Proofs.Number.Digits

/-!
Whole numbers as floating-point numbers.

A whole number of more than 53 binary digits loses those behind the first 53.

* `Number.nearestWhole m`: the whole number that is left of `m`, and `Number.held?`, the same with a
  sign, if it is not too large for a floating-point number;
* `Number.held?_of_le`: nothing is lost up to `2 ^ 53`;
* `Binary64.value?_ofScientific_whole` and `Binary64.value?_toString`: **the floating-point number
  that the text of a whole number stands for** has this value exactly.
-/

namespace CallContracts

/-! ### Rounded quotients -/

namespace Number

lemma roundQuotient_mul {d : ℕ} (hd : 0 < d) (k : ℕ) : roundQuotient (k * d) d = k := by
  simp [roundQuotient, Nat.mul_div_cancel k hd, hd]

lemma le_roundQuotient (n d : ℕ) : n / d ≤ roundQuotient n d := by
  simp only [roundQuotient]
  split_ifs <;> omega

lemma roundQuotient_le (n d : ℕ) : roundQuotient n d ≤ n / d + 1 := by
  simp only [roundQuotient]
  split_ifs <;> omega

/-! ### What is left of a whole number -/

/-- The place value of the last binary digit that is kept of a whole number. -/
def lastPlace (m : ℕ) : ℕ := 2 ^ (m.log2 - 52)

/-- A whole number rounded to 53 binary digits, a tie to the even one. -/
def nearestWhole (m : ℕ) : ℕ := roundQuotient m (lastPlace m) * lastPlace m

lemma lastPlace_pos (m : ℕ) : 0 < lastPlace m := by simp [lastPlace]

@[simp]
lemma nearestWhole_zero : nearestWhole 0 = 0 := by
  rw [nearestWhole, show lastPlace 0 = 1 by simp [lastPlace]]
  rfl

/-- No whole number from here on is a floating-point number. -/
def wholeLimit : ℕ := 2 ^ 1024

lemma wholeLimit_pos : 0 < wholeLimit := by
  rw [wholeLimit]
  positivity

/-- The limit has at most 330 digits. -/
lemma wholeLimit_le {k : ℕ} (hk : 330 ≤ k) : wholeLimit ≤ 10 ^ k :=
  calc wholeLimit ≤ 2 ^ (13 * 82) := by
        rw [wholeLimit]
        gcongr <;> omega
    _ = (2 ^ 13) ^ 82 := pow_mul 2 13 82
    _ ≤ (10 ^ 4) ^ 82 := Nat.pow_le_pow_left (by norm_num) 82
    _ ≤ 10 ^ k := by
        rw [← pow_mul]
        gcongr <;> omega

lemma wholeLimit_le_of_digits {m : ℕ} (h : 330 < (Nat.toDigits 10 m).length) :
    wholeLimit ≤ m := by
  have hlarge : ¬ m < 10 ^ ((Nat.toDigits 10 m).length - 1) := by
    rw [← Nat.length_toDigits_le_iff (by omega) (by omega)]
    omega
  exact (wholeLimit_le (by omega)).trans (not_lt.1 hlarge)

/-- Nothing is lost of a number of which all binary digits behind the first 53 are zero. -/
lemma nearestWhole_of_dvd {m : ℕ} (h : lastPlace m ∣ m) : nearestWhole m = m := by
  have hround : roundQuotient m (lastPlace m) = m / lastPlace m := by
    simpa [Nat.div_mul_cancel h] using roundQuotient_mul (lastPlace_pos m) (m / lastPlace m)
  rw [nearestWhole, hround, Nat.div_mul_cancel h]

lemma nearestWhole_of_le {m : ℕ} (h : m ≤ 2 ^ 53) : nearestWhole m = m := by
  refine nearestWhole_of_dvd ?_
  rcases h.lt_or_eq with h | rfl
  · rcases Nat.eq_zero_or_pos m with rfl | hm
    · exact dvd_zero _
    · have hlog : m.log2 < 53 := (Nat.log2_lt hm.ne').2 h
      rw [lastPlace, show m.log2 - 52 = 0 by omega, pow_zero]
      exact one_dvd m
  · rw [lastPlace, Nat.log2_two_pow]
    exact pow_dvd_pow 2 (by omega)

/-- The leading binary digit of a number of at least 53 digits stays. -/
lemma quotient_bounds {m : ℕ} (hm : 52 ≤ m.log2) :
    2 ^ 52 ≤ m / lastPlace m ∧ m / lastPlace m < 2 ^ 53 := by
  have hne : m ≠ 0 := by
    rintro rfl
    simp at hm
  have hlow : 2 ^ m.log2 ≤ m := Nat.log2_self_le hne
  have hhigh : m < 2 ^ (m.log2 + 1) := Nat.lt_log2_self
  rw [Nat.le_div_iff_mul_le (lastPlace_pos m), Nat.div_lt_iff_lt_mul (lastPlace_pos m), lastPlace,
    ← pow_add, ← pow_add, show 52 + (m.log2 - 52) = m.log2 by omega,
    show 53 + (m.log2 - 52) = m.log2 + 1 by omega]
  exact ⟨hlow, hhigh⟩

/-- Rounding does not go below a power of two. -/
lemma two_pow_le_nearestWhole {m k : ℕ} (h : 2 ^ k ≤ m) : 2 ^ k ≤ nearestWhole m := by
  rcases le_total m (2 ^ 53) with hm | hm
  · rwa [nearestWhole_of_le hm]
  have hne : m ≠ 0 := by
    rintro rfl
    simp at hm
  have hlog : 53 ≤ m.log2 := (Nat.le_log2 hne).2 hm
  have hk : k ≤ m.log2 := (Nat.le_log2 hne).2 h
  calc 2 ^ k ≤ 2 ^ m.log2 := Nat.pow_le_pow_right (by omega) hk
    _ = 2 ^ 52 * lastPlace m := by
      rw [lastPlace, ← pow_add, show 52 + (m.log2 - 52) = m.log2 by omega]
    _ ≤ nearestWhole m := Nat.mul_le_mul_right _
      ((quotient_bounds (by omega)).1.trans (le_roundQuotient _ _))

lemma wholeLimit_le_nearestWhole {m : ℕ} (h : wholeLimit ≤ m) : wholeLimit ≤ nearestWhole m := by
  rw [wholeLimit] at h ⊢
  exact two_pow_le_nearestWhole h

/-- The whole number that is left of one in a floating-point number, if it is not too large. -/
def held? (k : ℤ) : Option ℤ :=
  if nearestWhole k.natAbs < wholeLimit then some (k.sign * nearestWhole k.natAbs) else none

/-- Up to `2 ^ 53` nothing is lost. -/
lemma held?_of_le {k : ℤ} (h : k.natAbs ≤ 2 ^ 53) : held? k = some k := by
  have hlimit : k.natAbs < wholeLimit := h.trans_lt (by rw [wholeLimit]; gcongr <;> omega)
  rw [held?, nearestWhole_of_le h, if_pos hlimit, Int.sign_mul_natAbs]

end Number

/-! ### The floating-point number -/

namespace Binary64

open Number

lemma pow2_eq (e : ℤ) : pow2 e = (2 : ℚ) ^ e := by
  rw [pow2]
  split_ifs with he
  · obtain ⟨k, rfl⟩ := Int.eq_ofNat_of_zero_le he
    simp
  · obtain ⟨k, hk⟩ := Int.eq_ofNat_of_zero_le (a := -e) (by omega)
    rw [hk, show e = -(k : ℤ) by omega]
    simp

/-- The exponent of a whole number. -/
lemma exponentFor_one {m : ℕ} (hm : m ≠ 0) : exponentFor m 1 = (m.log2 : ℤ) - 52 := by
  have hlow : 2 ^ m.log2 ≤ m := Nat.log2_self_le hm
  have hnormal : isBelowNormal m 1 ((m.log2 : ℤ) - 52) = false := by
    rw [isBelowNormal]
    split_ifs with he
    · have hpow : 2 ^ ((m.log2 : ℤ) - 52).toNat * leastNormal = 2 ^ m.log2 := by
        rw [show leastNormal = 2 ^ 52 from rfl, ← pow_add]
        congr 1
        omega
      simpa [hpow] using hlow
    · have hpow : 2 ^ m.log2 * 2 ^ (-((m.log2 : ℤ) - 52)).toNat = leastNormal := by
        rw [show leastNormal = 2 ^ 52 from rfl, ← pow_add]
        congr 1
        omega
      simp only [Nat.one_mul, ← hpow, decide_eq_false_iff_not, not_lt]
      exact Nat.mul_le_mul_right _ hlow
  have hlog : Nat.log2 1 = 0 := by decide
  simp only [exponentFor, hlog, Nat.cast_zero, sub_zero, hnormal, Bool.false_eq_true, if_false]
  exact max_eq_left (by simp only [leastExponent]; omega)

/-- The significand of a whole number has 53 digits, or is the next power of two. -/
lemma scaledQuotient_one {m : ℕ} (hm : m ≠ 0) :
    leastNormal ≤ scaledQuotient m 1 ((m.log2 : ℤ) - 52) ∧
      scaledQuotient m 1 ((m.log2 : ℤ) - 52) ≤ 2 * leastNormal ∧
      (scaledQuotient m 1 ((m.log2 : ℤ) - 52) : ℚ) * 2 ^ ((m.log2 : ℤ) - 52) =
        nearestWhole m := by
  rw [scaledQuotient]
  split_ifs with he
  · have hlog : 52 ≤ m.log2 := by omega
    have hplace : 1 * Nat.pow 2 ((m.log2 : ℤ) - 52).toNat = lastPlace m := by
      rw [lastPlace, one_mul, show ((m.log2 : ℤ) - 52).toNat = m.log2 - 52 by omega]
      rfl
    obtain ⟨hlow, hhigh⟩ := quotient_bounds hlog
    have hround := le_roundQuotient m (lastPlace m)
    have hround' := roundQuotient_le m (lastPlace m)
    rw [hplace, show leastNormal = 2 ^ 52 from rfl]
    refine ⟨by omega, by omega, ?_⟩
    rw [show (m.log2 : ℤ) - 52 = ((m.log2 - 52 : ℕ) : ℤ) by omega, zpow_natCast, nearestWhole,
      lastPlace]
    push_cast
    rfl
  · have hlog : m.log2 < 52 := by omega
    have hlow : 2 ^ m.log2 ≤ m := Nat.log2_self_le hm
    have hhigh : m < 2 ^ (m.log2 + 1) := Nat.lt_log2_self
    have hsmall : m ≤ 2 ^ 53 := hhigh.le.trans (Nat.pow_le_pow_right (by omega) (by omega))
    have hexact : roundQuotient (m * Nat.pow 2 (-((m.log2 : ℤ) - 52)).toNat) 1 =
        m * 2 ^ (52 - m.log2) := by
      rw [show (-((m.log2 : ℤ) - 52)).toNat = 52 - m.log2 by omega]
      simpa using roundQuotient_mul Nat.one_pos (m * 2 ^ (52 - m.log2))
    have hleast : 2 ^ m.log2 * 2 ^ (52 - m.log2) = leastNormal := by
      rw [← pow_add, show m.log2 + (52 - m.log2) = 52 by omega]
      rfl
    rw [hexact, ← hleast]
    refine ⟨Nat.mul_le_mul_right _ hlow, ?_, ?_⟩
    · rw [← Nat.mul_assoc, ← pow_succ']
      exact Nat.mul_le_mul_right _ hhigh.le
    · rw [nearestWhole_of_le hsmall, show (m.log2 : ℤ) - 52 = -((52 - m.log2 : ℕ) : ℤ) by omega,
        zpow_neg, zpow_natCast]
      push_cast
      field_simp

/-- A significand of 53 digits gives a number below the limit if the exponent is in range. -/
lemma greatestExponent_lt_iff {s : ℕ} {e : ℤ} (hlow : leastNormal ≤ s)
    (hhigh : s < 2 * leastNormal) :
    greatestExponent < e ↔ (wholeLimit : ℚ) ≤ s * 2 ^ e := by
  have hlimit : (wholeLimit : ℚ) = 2 ^ (1024 : ℤ) := by
    rw [wholeLimit, Nat.cast_pow, Nat.cast_ofNat, ← zpow_natCast]
    rfl
  have hlow : (2 : ℚ) ^ (52 : ℤ) ≤ s := by exact_mod_cast hlow
  have hhigh : (s : ℚ) < 2 ^ (53 : ℤ) := by exact_mod_cast hhigh
  rw [hlimit]
  constructor
  · intro he
    have he : (2 : ℚ) ^ (972 : ℤ) ≤ 2 ^ e := zpow_le_zpow_right₀ (by norm_num) he
    calc (2 : ℚ) ^ (1024 : ℤ) = 2 ^ (52 : ℤ) * 2 ^ (972 : ℤ) := by
          rw [← zpow_add₀ (by norm_num), show (52 : ℤ) + 972 = 1024 by norm_num]
      _ ≤ s * 2 ^ e := mul_le_mul hlow he (by positivity) (Nat.cast_nonneg s)
  · intro h
    by_contra he
    have he : (2 : ℚ) ^ e ≤ 2 ^ (971 : ℤ) := zpow_le_zpow_right₀ (by norm_num) (not_lt.1 he)
    have hbelow : (s : ℚ) * 2 ^ e < 2 ^ (1024 : ℤ) :=
      calc (s : ℚ) * 2 ^ e < 2 ^ (53 : ℤ) * 2 ^ (971 : ℤ) :=
            mul_lt_mul hhigh he (by positivity) (by positivity)
        _ = 2 ^ (1024 : ℤ) := by
          rw [← zpow_add₀ (by norm_num), show (53 : ℤ) + 971 = 1024 by norm_num]
    exact absurd h (not_le.2 hbelow)

/-- The carry to the next power of two does not change the value, and leaves a significand of 53
digits. -/
lemma exists_carried {s : ℕ} {e : ℤ} (hlow : leastNormal ≤ s) (hhigh : s ≤ 2 * leastNormal) :
    ∃ s' e', (if s = 2 * leastNormal then (leastNormal, e + 1) else (s, e)) = (s', e') ∧
      leastNormal ≤ s' ∧ s' < 2 * leastNormal ∧ (s' : ℚ) * 2 ^ e' = s * 2 ^ e := by
  split_ifs with hs
  · refine ⟨_, _, rfl, le_rfl, by decide, ?_⟩
    rw [hs, zpow_add_one₀ (by norm_num)]
    push_cast
    ring
  · exact ⟨s, e, rfl, hlow, by omega, rfl⟩

/-- The value of the number nearest to a whole number. -/
lemma value?_ofQuotient_one (negative : Bool) (m : ℕ) : (ofQuotient negative m 1).value? =
    if nearestWhole m < wholeLimit then
      some ((if negative then -1 else 1) * (nearestWhole m : ℚ))
    else none := by
  rcases eq_or_ne m 0 with rfl | hm
  · simp [ofQuotient, zero, value?, wholeLimit_pos]
  obtain ⟨hlow, hhigh, hvalue⟩ := scaledQuotient_one hm
  obtain ⟨s, e, hcarry, hlow, hhigh, hcarried⟩ :=
    exists_carried (e := (m.log2 : ℤ) - 52) hlow hhigh
  rw [hvalue] at hcarried
  have hs : s ≠ 0 := by
    have hleast : 0 < leastNormal := by decide
    omega
  have hoverflow : greatestExponent < e ↔ ¬ nearestWhole m < wholeLimit := by
    rw [greatestExponent_lt_iff hlow hhigh, hcarried, not_lt]
    exact_mod_cast Iff.rfl
  rw [ofQuotient, if_neg hm]
  simp only [exponentFor_one hm, hcarry, hoverflow, ite_not, if_neg hs]
  by_cases hlimit : nearestWhole m < wholeLimit
  · rw [if_pos hlimit, if_pos hlimit, value?, pow2_eq, ← hcarried, mul_assoc]
  · rw [if_neg hlimit, if_neg hlimit, value?]
    simp

/-- **The floating-point number nearest to a whole number** has the value that 53 binary digits
leave, if that is below the limit; otherwise it is infinite. -/
theorem value?_ofScientific_whole (negative : Bool) (m : ℕ) :
    (ofScientific negative m 0).value? =
      if nearestWhole m < wholeLimit then
        some ((if negative then -1 else 1) * (nearestWhole m : ℚ))
      else none := by
  rw [← value?_ofQuotient_one, ofScientific]
  rcases eq_or_ne m 0 with rfl | hm
  · rfl
  simp only [hm, decide_false, Bool.false_or, decide_eq_true_eq, add_zero]
  rw [if_neg (by omega)]
  by_cases hlong : 330 < ((Nat.toDigits 10 m).length : ℤ)
  · have hlarge : wholeLimit ≤ m := wholeLimit_le_of_digits (by omega)
    have hlimit : ¬ nearestWhole m < wholeLimit := not_lt.2 (wholeLimit_le_nearestWhole hlarge)
    rw [value?_ofQuotient_one, if_neg hlimit, if_pos hlong, value?]
    simp
  · rw [if_neg hlong]
    simp

/-- The text of a whole number stands for what is left of it. -/
theorem value?_toString (k : ℤ) :
    (parse? (toString k)).bind value? = (held? k).map fun m : ℤ => (m : ℚ) := by
  rw [parse?_toString, Option.bind_some, value?_ofScientific_whole, held?]
  by_cases hlimit : nearestWhole k.natAbs < wholeLimit
  · rw [if_pos hlimit, if_pos hlimit, Option.map_some]
    rcases lt_trichotomy k 0 with hk | rfl | hk
    · simp [hk, Int.sign_eq_neg_one_of_neg hk]
    · simp
    · simp [not_lt.2 hk.le, Int.sign_eq_one_of_pos hk]
  · rw [if_neg hlimit, if_neg hlimit, Option.map_none]

end Binary64

end CallContracts
