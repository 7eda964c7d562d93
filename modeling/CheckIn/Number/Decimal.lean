/-
# Decimal text of whole numbers

Naturals and integers as every text of the agent writes them: base ten, no leading zeros, a
minus sign in front of negative numbers.
-/

namespace CheckIn

/-- The decimal digits of a natural number, most significant first. -/
def decimalDigits (n : Nat) : List Char := Nat.toDigits 10 n

/-- A natural number in base ten. -/
def decimalNat (n : Nat) : String := String.ofList (decimalDigits n)

/-- An integer in base ten. -/
def decimalInt : Int → String
  | .ofNat n => decimalNat n
  | .negSucc n => "-" ++ decimalNat (n + 1)

/-- The value of a run of decimal digits, `0` for the empty one. -/
def digitsValue (digits : List Char) : Nat := Nat.ofDigitChars 10 digits 0

@[simp] theorem digitsValue_decimalDigits (n : Nat) : digitsValue (decimalDigits n) = n :=
  Nat.ofDigitChars_toDigits (by decide) (by decide)

theorem isDigit_of_mem_decimalDigits {n : Nat} {c : Char} (h : c ∈ decimalDigits n) :
    c.isDigit :=
  Nat.isDigit_of_mem_toDigits (by decide) (by decide) h

theorem decimalDigits_ne_nil (n : Nat) : decimalDigits n ≠ [] := Nat.toDigits_ne_nil

/-- Decimal digits begin with a zero only if there is just one of them. -/
theorem decimalDigits_zero {n : Nat} {rest : List Char} (h : decimalDigits n = '0' :: rest) :
    rest = [] := by
  induction n using Nat.strongRecOn generalizing rest with
  | _ n ih =>
    rw [decimalDigits, Nat.toDigits_eq_if (by decide)] at h
    split at h
    · exact (List.cons.inj h).2.symm
    · next hn =>
      -- the digits before the last one are those of a smaller number, which is not zero
      cases hd : Nat.toDigits 10 (n / 10) with
      | nil => exact absurd hd Nat.toDigits_ne_nil
      | cons c more =>
        rw [hd, List.cons_append] at h
        obtain ⟨rfl, -⟩ := List.cons.inj h
        have hmore := ih (n / 10) (by omega) hd
        have hval := digitsValue_decimalDigits (n / 10)
        rw [decimalDigits, hd, hmore] at hval
        have hzero : digitsValue ['0'] = 0 := by decide
        omega

end CheckIn
