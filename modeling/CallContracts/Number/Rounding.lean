/-!
Rounding a quotient to the nearest integer, a tie to the even one.

Main definition: `roundQuotient`. Main statement: `two_mul_dist_roundQuotient`, the result lies
within half a unit of the exact quotient.
-/

namespace CallContracts.Number

/-- The integer nearest to `n / d`; of two equally near ones, the even one. -/
def roundQuotient (n d : Nat) : Nat :=
  let q := n / d
  let r := n % d
  if 2 * r < d then q else if d < 2 * r then q + 1 else q + q % 2

/-- The rounded quotient is within half a unit of the exact one. -/
theorem two_mul_dist_roundQuotient (n : Nat) {d : Nat} (hd : 0 < d) :
    2 * n ≤ (2 * roundQuotient n d + 1) * d ∧ 2 * roundQuotient n d * d ≤ 2 * n + d := by
  have h := Nat.div_add_mod n d
  have hr := Nat.mod_lt n hd
  have hc : n / d * d = d * (n / d) := Nat.mul_comm _ _
  have hm : (n / d + 1) * d = d * (n / d) + d := by rw [Nat.add_mul, hc, Nat.one_mul]
  have hp : n / d % 2 = 0 ∨ n / d % 2 = 1 := by omega
  unfold roundQuotient
  simp only
  split
  · constructor
    · rw [Nat.add_mul, Nat.mul_assoc, hc]; omega
    · rw [Nat.mul_assoc, hc]; omega
  · split
    · constructor
      · rw [Nat.add_mul, Nat.mul_assoc, hm]; omega
      · rw [Nat.mul_assoc, hm]; omega
    · rcases hp with hp | hp
      · rw [hp]
        constructor
        · rw [Nat.add_mul, Nat.mul_assoc, Nat.add_zero, hc]; omega
        · rw [Nat.mul_assoc, Nat.add_zero, hc]; omega
      · rw [hp]
        constructor
        · rw [Nat.add_mul, Nat.mul_assoc, hm]; omega
        · rw [Nat.mul_assoc, hm]; omega

end CallContracts.Number
