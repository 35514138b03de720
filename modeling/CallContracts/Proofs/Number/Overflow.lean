import CallContracts.Proofs.Number.Nearest

/-!
Fractions that are too large for a floating-point number.

Rounding goes to a significand of 53 binary digits, so a fraction overflows if it is at least
halfway between the greatest finite number and the next power of two.

* `Binary64.exists_exponentFor`: the exponent of a fraction is that of its leading binary digit, or
  the least one;
* `Number.le_roundQuotient_iff`: a quotient is rounded up to an even number from half a unit below
  it;
* `Binary64.ofRat_eq_infinite_iff`: **the number nearest to a fraction is infinite** exactly from
  `Binary64.overflowLimit` on.
-/

namespace CallContracts

namespace Number

/-- A quotient halfway between two integers is rounded to an even one. -/
lemma even_roundQuotient {n d q : ℕ} (hd : 0 < d) (h : 2 * n = (2 * q + 1) * d) :
    Even (roundQuotient n d) := by
  have hq : n / d = q := Nat.div_eq_of_lt_le (by nlinarith) (by nlinarith)
  have hrest : 2 * (n % d) = d := by
    have hdivision := Nat.div_add_mod n d
    rw [hq] at hdivision
    have hproduct : (2 * q + 1) * d = 2 * (d * q) + d := by ring
    omega
  rw [Nat.even_iff]
  simp only [roundQuotient, hq, hrest, lt_irrefl, if_false]
  omega

/-- A quotient is rounded up to an even number from half a unit below it. -/
lemma le_roundQuotient_iff {n d k : ℕ} (hd : 0 < d) (hk : Even k) :
    k ≤ roundQuotient n d ↔ 2 * k * d ≤ 2 * n + d := by
  obtain ⟨hlow, hhigh⟩ := two_mul_dist_roundQuotient n hd
  refine ⟨fun h => le_trans (by gcongr) hhigh, fun h => ?_⟩
  by_contra hbelow
  -- only one more than what is rounded to is near enough, and then the quotient is halfway to it
  have hnext : k ≤ roundQuotient n d + 1 := by
    by_contra habove
    have hfar : 2 * (roundQuotient n d + 2) * d ≤ 2 * k * d := by gcongr; omega
    nlinarith
  obtain rfl : k = roundQuotient n d + 1 := by omega
  have htie : 2 * n = (2 * roundQuotient n d + 1) * d := le_antisymm hlow (by nlinarith)
  exact Nat.not_even_iff_odd.2 (even_roundQuotient hd htie).add_one hk

end Number

namespace Binary64

open Number

variable {n d : ℕ} {e : ℤ}

/-! ### The exponent of a fraction -/

lemma isBelowNormal_iff (hd : 0 < d) :
    isBelowNormal n d e = true ↔ (n : ℚ) / d < 2 ^ (52 : ℤ) * 2 ^ e := by
  have hd' : (0 : ℚ) < d := Nat.cast_pos.2 hd
  rw [isBelowNormal, div_lt_iff₀ hd', show leastNormal = 2 ^ 52 from rfl]
  split_ifs with he
  · obtain ⟨k, rfl⟩ := Int.eq_ofNat_of_zero_le he
    rw [decide_eq_true_eq, ← Nat.cast_lt (α := ℚ)]
    simp only [Int.toNat_natCast, Nat.pow_eq, zpow_natCast]
    push_cast
    constructor <;> intro h <;> linarith
  · obtain ⟨k, hk⟩ := Int.eq_ofNat_of_zero_le (a := -e) (by omega)
    have hpow : (0 : ℚ) < 2 ^ k := by positivity
    rw [decide_eq_true_eq, ← Nat.cast_lt (α := ℚ), hk, show e = -(k : ℤ) by omega, zpow_neg,
      zpow_natCast]
    simp only [Int.toNat_natCast, Nat.pow_eq]
    push_cast
    rw [← lt_div_iff₀ hpow, div_eq_mul_inv]
    constructor <;> intro h <;> linarith

/-- A fraction lies between the powers of two around its leading binary digit. -/
lemma quotient_log2_bounds (hn : n ≠ 0) (hd : d ≠ 0) :
    (2 : ℚ) ^ ((n.log2 : ℤ) - d.log2 - 1) ≤ (n : ℚ) / d ∧
      (n : ℚ) / d < 2 ^ ((n.log2 : ℤ) - d.log2 + 1) := by
  have hd' : (0 : ℚ) < d := Nat.cast_pos.2 (Nat.pos_of_ne_zero hd)
  have hlow : (2 : ℚ) ^ (n.log2 : ℤ) ≤ n := by exact_mod_cast Nat.log2_self_le hn
  have hhigh : (n : ℚ) < 2 ^ ((n.log2 : ℤ) + 1) := by exact_mod_cast Nat.lt_log2_self (n := n)
  have hlow' : (2 : ℚ) ^ (d.log2 : ℤ) ≤ d := by exact_mod_cast Nat.log2_self_le hd
  have hhigh' : (d : ℚ) < 2 ^ ((d.log2 : ℤ) + 1) := by exact_mod_cast Nat.lt_log2_self (n := d)
  rw [le_div_iff₀ hd', div_lt_iff₀ hd']
  constructor
  · calc (2 : ℚ) ^ ((n.log2 : ℤ) - d.log2 - 1) * d
        ≤ 2 ^ ((n.log2 : ℤ) - d.log2 - 1) * 2 ^ ((d.log2 : ℤ) + 1) := by gcongr
      _ = 2 ^ (n.log2 : ℤ) := by
        rw [← zpow_add₀ (by norm_num)]
        congr 1
        omega
      _ ≤ n := hlow
  · calc (n : ℚ) < 2 ^ ((n.log2 : ℤ) + 1) := hhigh
      _ = 2 ^ ((n.log2 : ℤ) - d.log2 + 1) * 2 ^ (d.log2 : ℤ) := by
        rw [← zpow_add₀ (by norm_num)]
        congr 1
        omega
      _ ≤ 2 ^ ((n.log2 : ℤ) - d.log2 + 1) * d := by gcongr

/-- The exponent of a fraction is that of its leading binary digit, or the least one. -/
lemma exists_exponentFor (hn : n ≠ 0) (hd : 0 < d) :
    ∃ e, exponentFor n d = max e leastExponent ∧
      2 ^ (52 : ℤ) * 2 ^ e ≤ (n : ℚ) / d ∧ (n : ℚ) / d < 2 ^ (53 : ℤ) * 2 ^ e := by
  obtain ⟨hlow, hhigh⟩ := quotient_log2_bounds hn hd.ne'
  have hpow : ∀ i j : ℤ, (2 : ℚ) ^ i * 2 ^ j = 2 ^ (i + j) := fun i j =>
    (zpow_add₀ (by norm_num) i j).symm
  rw [exponentFor]
  split_ifs with hbelow
  · rw [isBelowNormal_iff hd, hpow] at hbelow
    refine ⟨_, rfl, ?_, ?_⟩
    · rw [hpow]
      convert hlow using 2
      omega
    · rw [hpow]
      convert hbelow using 2
      omega
  · rw [isBelowNormal_iff hd, not_lt] at hbelow
    refine ⟨_, rfl, hbelow, ?_⟩
    rw [hpow]
    convert hhigh using 2
    omega

/-! ### Overflow -/

/-- Fractions from here on are too large for a floating-point number: halfway between the greatest
finite number and the next power of two. -/
def overflowLimit : ℚ := 2 ^ 1024 - 2 ^ 970

/-- The limit in units of the greatest exponent. -/
lemma overflowLimit_eq : overflowLimit = (9007199254740992 - 1 / 2) * 2 ^ greatestExponent := by
  have htop : (2 : ℚ) ^ 1024 = 2 ^ (53 : ℤ) * 2 ^ greatestExponent := by
    rw [← zpow_add₀ (by norm_num), ← zpow_natCast]
    rfl
  have hhalf : (2 : ℚ) ^ greatestExponent = 2 ^ 970 * 2 := by
    rw [← pow_succ, ← zpow_natCast]
    rfl
  rw [overflowLimit, htop, hhalf]
  generalize (2 : ℚ) ^ 970 = half
  norm_num
  ring

lemma lt_overflowLimit : 4503599627370496 * 2 ^ greatestExponent < overflowLimit := by
  have htop : (0 : ℚ) < 2 ^ greatestExponent := zpow_pos (by norm_num) _
  rw [overflowLimit_eq]
  linarith

/-- All whole numbers of 331 digits overflow. -/
lemma overflowLimit_le {k : ℕ} (hk : 330 ≤ k) : overflowLimit ≤ 10 ^ k := by
  have hpow : (0 : ℚ) < 2 ^ 970 := by positivity
  calc overflowLimit ≤ (wholeLimit : ℚ) := by
        rw [overflowLimit, wholeLimit, Nat.cast_pow, Nat.cast_ofNat]
        exact sub_le_self _ hpow.le
    _ ≤ 10 ^ k := by exact_mod_cast wholeLimit_le hk

/-- The place value of the last digit at the greatest exponent. -/
lemma exists_place (n d : ℕ) : ∃ place : ℕ, 0 < place ∧ (2 : ℚ) ^ greatestExponent = place ∧
    scaledQuotient n d greatestExponent = roundQuotient n (d * place) := by
  have hpos : ∀ k, 0 < Nat.pow 2 k := fun k => Nat.pow_pos Nat.two_pos
  refine ⟨Nat.pow 2 greatestExponent.toNat, hpos _, ?_, ?_⟩
  · rw [Nat.pow_eq, Nat.cast_pow, ← zpow_natCast]
    rfl
  · rw [scaledQuotient, if_pos (by decide)]

/-- The significand of a fraction at the greatest exponent is carried to the next power of two from
the limit on. -/
lemma scaledQuotient_eq_iff (hd : 0 < d)
    (hx : (n : ℚ) / d < 9007199254740992 * 2 ^ greatestExponent) :
    scaledQuotient n d greatestExponent = 2 * leastNormal ↔ overflowLimit ≤ (n : ℚ) / d := by
  have hd' : (0 : ℚ) < d := Nat.cast_pos.2 hd
  obtain ⟨place, hpos, hplace, hround⟩ := exists_place n d
  have hunit : 0 < d * place := Nat.mul_pos hd hpos
  rw [hplace, div_lt_iff₀ hd'] at hx
  rw [overflowLimit_eq, hplace, hround, le_div_iff₀ hd',
    show 2 * leastNormal = 9007199254740992 from rfl]
  have hbelow : roundQuotient n (d * place) ≤ 9007199254740992 := by
    have hsmall : n < 9007199254740992 * (d * place) := by
      rw [← Nat.cast_lt (α := ℚ)]
      push_cast
      linarith
    have hquotient : n / (d * place) < 9007199254740992 := (Nat.div_lt_iff_lt_mul hunit).2 hsmall
    exact (roundQuotient_le _ _).trans hquotient
  have hcarry : 9007199254740992 ≤ roundQuotient n (d * place) ↔
      2 * 9007199254740992 * ((d : ℚ) * place) ≤ 2 * n + d * place := by
    rw [le_roundQuotient_iff hunit (by decide), ← Nat.cast_le (α := ℚ)]
    push_cast
    norm_num
  have hequal : roundQuotient n (d * place) = 9007199254740992 ↔
      9007199254740992 ≤ roundQuotient n (d * place) := ⟨Eq.ge, le_antisymm hbelow⟩
  rw [hequal, hcarry]
  constructor <;> intro h <;> linarith

/-- Rounding overflows if the exponent is too large, or is so after a carry. -/
lemma ofQuotient_eq_infinite_iff {negative : Bool} (hn : n ≠ 0) :
    (∃ b, ofQuotient negative n d = .infinite b) ↔ greatestExponent < exponentFor n d ∨
      exponentFor n d = greatestExponent ∧
        scaledQuotient n d greatestExponent = 2 * leastNormal := by
  have hcarry : ∀ (s : ℕ) (e : ℤ), greatestExponent <
      (if s = 2 * leastNormal then (leastNormal, e + 1) else (s, e)).2 ↔
        greatestExponent < e ∨ e = greatestExponent ∧ s = 2 * leastNormal := by
    intro s e
    split_ifs with hs <;> simp only [hs, and_true, and_false, or_false]
    omega
  have hends : ∀ (s : ℕ) (e : ℤ), (∃ b, (if greatestExponent < e then .infinite negative
      else if s = 0 then zero negative else .finite negative s e) = Binary64.infinite b) ↔
        greatestExponent < e := by
    intro s e
    split_ifs with hlarge <;> simp [hlarge, zero]
  rw [ofQuotient, if_neg hn]
  refine (hends _ _).trans ((hcarry _ _).trans (or_congr_right (and_congr_right fun he => ?_)))
  rw [he]

/-- The number nearest to a quotient is infinite from the limit on. -/
lemma ofQuotient_eq_infinite_iff_le {negative : Bool} (hd : 0 < d) :
    (∃ b, ofQuotient negative n d = .infinite b) ↔ overflowLimit ≤ (n : ℚ) / d := by
  have htop : (0 : ℚ) < 2 ^ greatestExponent := zpow_pos (by norm_num) _
  have hlimit := lt_overflowLimit
  rcases eq_or_ne n 0 with rfl | hn
  · have hpos : 0 < overflowLimit := lt_trans (by linarith) hlimit
    simp [ofQuotient, zero, hpos]
  have hpow : (2 : ℚ) ^ (52 : ℤ) = 4503599627370496 ∧ (2 : ℚ) ^ (53 : ℤ) = 9007199254740992 := by
    norm_num
  obtain ⟨e, he, hlow, hhigh⟩ := exists_exponentFor hn hd
  rw [hpow.1] at hlow
  rw [hpow.2] at hhigh
  rw [ofQuotient_eq_infinite_iff hn, he]
  rcases lt_trichotomy e greatestExponent with hbelow | rfl | habove
  · -- even a carry stays in range
    have hsmall : (2 : ℚ) ^ (e + 1) ≤ 2 ^ greatestExponent :=
      zpow_le_zpow_right₀ (by norm_num) (by omega)
    rw [zpow_add_one₀ (by norm_num)] at hsmall
    have hmax : max e leastExponent < greatestExponent := max_lt hbelow (by decide)
    have hnot : (n : ℚ) / d < overflowLimit := by linarith
    simp [hmax.not_gt, hmax.ne, hnot]
  · have hmax : max greatestExponent leastExponent = greatestExponent := by decide
    simp only [hmax, lt_irrefl, false_or, true_and]
    exact scaledQuotient_eq_iff hd hhigh
  · have hlarge : (2 : ℚ) ^ (greatestExponent + 1) ≤ 2 ^ e :=
      zpow_le_zpow_right₀ (by norm_num) (by omega)
    rw [zpow_add_one₀ (by norm_num)] at hlarge
    have hover : overflowLimit ≤ (n : ℚ) / d := by
      rw [overflowLimit_eq]
      linarith
    simp [habove, hover]

/-- **The number nearest to a fraction is infinite** exactly from the limit on. -/
theorem ofRat_eq_infinite_iff {q : ℚ} :
    (∃ negative, ofRat q = .infinite negative) ↔ overflowLimit ≤ |q| := by
  have habs : |q| = (q.num.natAbs : ℚ) / q.den := by
    rw [Nat.cast_natAbs, Int.cast_abs, Rat.abs_def, Rat.divInt_eq_div]
    push_cast
    rfl
  rw [ofRat, ofQuotient_eq_infinite_iff_le q.den_pos, habs]

end Binary64

end CallContracts
