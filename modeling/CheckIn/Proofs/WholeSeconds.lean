/-
# Whole seconds as doubles

An interval of a configuration is a whole number of seconds, and the cadence keeps it as a
double.  Below `2 ^ 53` seconds nothing is lost on the way to the double and back
(`Duration.ofBinary64?_toBinary64`), so an interval that a configuration may have is one that a
ticker can keep.

A double is exact when rounding had nothing to do.  `Binary64.Exact` says so for a number of
units, and the rounding from which all the others are built is exact on every number that has a
significand (`Binary64.exact_ofRatio`).
-/
import CheckIn.Duration
import Mathlib.Tactic.Common

namespace CheckIn

namespace Binary64

/-! ## Exact doubles -/

/-- The double that is exactly so many units, and not negative. -/
structure Exact (x : Binary64) (units : Nat) : Prop where
  finite : x.isFinite = true
  nonnegative : x.isNegative = false
  units : x.units = units

/-- A significand with its hidden bit, moved up by a number of binary places. -/
lemma exact_ofMagnitude {significand places : Nat} (hlow : hiddenBit ≤ significand)
    (hhigh : significand < 2 * hiddenBit) (hplaces : places < 2046) :
    Exact (ofMagnitude false (places * hiddenBit + significand))
      (significand * Nat.pow 2 places) := by
  have hmin : min (places * hiddenBit + significand) infinityBits =
      places * hiddenBit + significand := by
    unfold infinityBits hiddenBit at *
    omega
  have hbits : (ofMagnitude false (places * hiddenBit + significand)).bits.toNat =
      places * hiddenBit + significand := by
    simp only [ofMagnitude, hmin, Bool.false_eq_true, if_false, Nat.add_zero,
      UInt64.toNat_ofNat']
    unfold hiddenBit at *
    omega
  have hexponent :
      (ofMagnitude false (places * hiddenBit + significand)).exponentField = places + 1 := by
    rw [exponentField, hbits]
    unfold hiddenBit at *
    omega
  have hfraction : (ofMagnitude false (places * hiddenBit + significand)).fraction =
      significand - hiddenBit := by
    rw [fraction, hbits]
    unfold hiddenBit at *
    omega
  constructor
  · rw [isFinite, hexponent]
    simp only [decide_eq_true_eq]
    omega
  · rw [isNegative, hbits]
    simp only [decide_eq_false_iff_not]
    unfold hiddenBit at *
    omega
  · rw [units, Binary64.significand, gap, hexponent, hfraction, if_neg (Nat.succ_ne_zero places),
      Nat.add_sub_cancel' hlow, Nat.add_sub_cancel]

/-- A significand has 53 binary places. -/
lemma log2_mul_pow {significand places : Nat} (hlow : hiddenBit ≤ significand)
    (hhigh : significand < 2 * hiddenBit) :
    Nat.log2 (significand * Nat.pow 2 places) = 52 + places := by
  have hpos : 0 < 2 ^ places := Nat.two_pow_pos places
  have hne : significand * 2 ^ places ≠ 0 := by
    unfold hiddenBit at hlow
    exact Nat.mul_ne_zero (by omega) (Nat.ne_of_gt hpos)
  rw [show Nat.pow 2 places = 2 ^ places from rfl, Nat.log2_eq_iff hne]
  constructor
  · calc 2 ^ (52 + places) = hiddenBit * 2 ^ places := Nat.pow_add 2 52 places
      _ ≤ significand * 2 ^ places := Nat.mul_le_mul_right _ hlow
  · calc significand * 2 ^ places < 2 * hiddenBit * 2 ^ places :=
        Nat.mul_lt_mul_of_pos_right hhigh hpos
      _ = 2 ^ (52 + places + 1) := by
        rw [show 52 + places + 1 = 53 + places by omega, Nat.pow_add 2 53 places]
        rfl

/-- A quotient that has a significand is rounded to itself. -/
lemma exact_ofRatio {num den significand places : Nat} (hden : 0 < den)
    (hquotient : num * unitsPerOne = significand * Nat.pow 2 places * den)
    (hlow : hiddenBit ≤ significand) (hhigh : significand < 2 * hiddenBit)
    (hplaces : places < 2046) :
    Exact (ofRatio false num den) (significand * Nat.pow 2 places) := by
  have hlog : Nat.log2 (significand * Nat.pow 2 places) - 52 = places := by
    rw [log2_mul_pow hlow hhigh, Nat.add_sub_cancel_left]
  have hround : divHalfEven (significand * Nat.pow 2 places * den) (den * Nat.pow 2 places) =
      significand := by
    rw [Nat.mul_assoc, Nat.mul_comm (Nat.pow 2 places) den]
    exact divHalfEven_mul_left significand (Nat.mul_pos hden (Nat.two_pow_pos places))
  simp only [ofRatio, hquotient, Nat.mul_div_cancel _ hden, hlog, hround]
  exact exact_ofMagnitude hlow hhigh hplaces

lemma two_pow_pos (n : Nat) : 0 < Nat.pow 2 n := Nat.two_pow_pos n

lemma unitsPerOne_eq {total : Nat} (h : total = 1074) : unitsPerOne = Nat.pow 2 total := by
  unfold unitsPerOne
  congr 1
  exact h.symm

lemma unitsPerOne_pos : 0 < unitsPerOne := by
  unfold unitsPerOne
  apply two_pow_pos

lemma two_pow_split {low high n total : Nat} (h : low ≤ high) (htotal : total = n + high) :
    Nat.pow 2 total = Nat.pow 2 (high - low) * Nat.pow 2 (n + low) := by
  have hsum : total = high - low + (n + low) := by omega
  rw [hsum]
  exact Nat.pow_add 2 (high - low) (n + low)

/-- A positive number below `2 ^ 53`, in units of one, has a significand. -/
lemma exists_significand {n : Nat} (hpos : 0 < n) (h : n < 2 * hiddenBit) :
    ∃ significand places, n * unitsPerOne = significand * Nat.pow 2 places ∧
      hiddenBit ≤ significand ∧ significand < 2 * hiddenBit ∧ places < 2046 := by
  have hne : n ≠ 0 := Nat.ne_of_gt hpos
  have hlog : Nat.log2 n ≤ 52 := by
    have hlt : Nat.log2 n < 53 := (Nat.log2_lt hne).mpr h
    omega
  refine ⟨n * Nat.pow 2 (52 - Nat.log2 n), 1022 + Nat.log2 n, ?_, ?_, ?_, by omega⟩
  · obtain ⟨total, htotal⟩ : ∃ total, total = 1022 + 52 := ⟨_, rfl⟩
    rw [unitsPerOne_eq htotal, two_pow_split hlog htotal, Nat.mul_assoc]
  · calc hiddenBit = Nat.pow 2 (52 - Nat.log2 n) * Nat.pow 2 (0 + Nat.log2 n) :=
        two_pow_split hlog (Nat.zero_add 52).symm
      _ = Nat.pow 2 (Nat.log2 n) * Nat.pow 2 (52 - Nat.log2 n) := by
        rw [Nat.zero_add, Nat.mul_comm]
      _ ≤ n * Nat.pow 2 (52 - Nat.log2 n) := Nat.mul_le_mul_right _ (Nat.log2_self_le hne)
  · calc n * Nat.pow 2 (52 - Nat.log2 n)
        < Nat.pow 2 (Nat.log2 n + 1) * Nat.pow 2 (52 - Nat.log2 n) :=
        Nat.mul_lt_mul_of_pos_right Nat.lt_log2_self (two_pow_pos _)
      _ = Nat.pow 2 (52 - Nat.log2 n) * Nat.pow 2 (1 + Nat.log2 n) := by
        rw [Nat.mul_comm, Nat.add_comm]
      _ = 2 * hiddenBit := (two_pow_split hlog (show 53 = 1 + 52 from rfl)).symm

/-- A quotient that is a positive number below `2 ^ 53` is rounded to itself. -/
lemma exact_ofRatio_of_eq {num den n : Nat} (hden : 0 < den) (hquotient : num = n * den)
    (hpos : 0 < n) (h : n < 2 * hiddenBit) : Exact (ofRatio false num den) (n * unitsPerOne) := by
  obtain ⟨significand, places, heq, hlow, hhigh, hplaces⟩ := exists_significand hpos h
  rw [heq]
  refine exact_ofRatio hden ?_ hlow hhigh hplaces
  rw [hquotient, Nat.mul_right_comm, heq]

end Binary64

namespace Duration

/-! ## Whole seconds -/

lemma units_ofRatio_zero : (Binary64.ofRatio false 0 nanosPerSecond).units = 0 := by
  decide +kernel

/-- A positive number of seconds below `2 ^ 53` is a double. -/
lemma exact_toBinary64_ofSeconds {s : UInt64} (hpos : 0 < s.toNat)
    (h : s.toNat < 2 * Binary64.hiddenBit) :
    (ofSeconds s).toBinary64.Exact (s.toNat * Binary64.unitsPerOne) := by
  have hwhole : Binary64.Exact (.ofNat s.toNat) (s.toNat * Binary64.unitsPerOne) :=
    Binary64.exact_ofRatio_of_eq Nat.one_pos (Nat.mul_one _).symm hpos h
  rw [toBinary64, secondsOfNanos, nanos_ofSeconds, Nat.mul_div_cancel _ (by decide),
    Nat.mul_mod_left, Binary64.addMagnitude, hwhole.units, units_ofRatio_zero, Nat.add_zero]
  exact Binary64.exact_ofRatio_of_eq Binary64.unitsPerOne_pos rfl hpos h

/-- A number of seconds below `2 ^ 53` comes back from its double. -/
theorem ofBinary64?_toBinary64 {s : UInt64} (hpos : 0 < s.toNat)
    (h : s.toNat < 2 * Binary64.hiddenBit) :
    ofBinary64? (ofSeconds s).toBinary64 = some (ofSeconds s) := by
  obtain ⟨hfinite, hnonnegative, hunits⟩ := exact_toBinary64_ofSeconds hpos h
  have hnanos : divHalfEven ((ofSeconds s).toBinary64.units * nanosPerSecond)
      Binary64.unitsPerOne = s.toNat * nanosPerSecond := by
    rw [hunits, Nat.mul_right_comm]
    exact divHalfEven_mul_left _ Binary64.unitsPerOne_pos
  have hlt := (ofSeconds s).nanos_lt
  rw [nanos_ofSeconds] at hlt
  rw [ofBinary64?, if_neg (by simp [hfinite, Binary64.isBelowZero, hnonnegative])]
  simp only [hnanos, dif_pos hlt]
  rfl

end Duration

end CheckIn
