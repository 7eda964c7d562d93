/-
# Rounding a quotient to the nearest whole number

Two places of the agent round an exact quotient: reading a decimal into a double, and turning
a number of seconds into a whole number of nanoseconds.  Both take the nearest whole number,
and of two equally near ones the even one.
-/

namespace CheckIn

/-- The whole number nearest to `num / den`; a half goes to the even neighbour. -/
def divHalfEven (num den : Nat) : Nat :=
  let below := num / den
  let twice := 2 * (num % den)
  if den < twice ∨ (twice = den ∧ below % 2 = 1) then below + 1 else below

/-- A quotient without remainder is not changed by rounding. -/
theorem divHalfEven_mul_left (n : Nat) {den : Nat} (h : 0 < den) :
    divHalfEven (n * den) den = n := by
  simp only [divHalfEven, Nat.mul_mod_left, Nat.mul_div_cancel _ h]
  rw [if_neg]
  omega

/-- Rounding stays within one of the quotient rounded down. -/
theorem divHalfEven_le (num den : Nat) : divHalfEven num den ≤ num / den + 1 := by
  simp only [divHalfEven]
  split <;> omega

theorem le_divHalfEven (num den : Nat) : num / den ≤ divHalfEven num den := by
  simp only [divHalfEven]
  split <;> omega

end CheckIn
