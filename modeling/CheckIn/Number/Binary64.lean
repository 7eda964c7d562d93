/-
# Doubles as bit patterns

The controller speaks of intervals as IEEE 754 doubles, and the agent must treat every one of
the `2 ^ 64` patterns: not-a-numbers, infinities, both zeros, subnormals.  A double is therefore
its bits here, and each operation is defined by exact arithmetic on whole numbers.

The magnitude of a finite double is a whole number of units of `2 ^ -1074`, the smallest
positive double.  `Binary64.units` is that number, and `Binary64.ofRatio` is the one rounding
from which addition, multiplication, division and the reading of decimals are built.
-/
import CheckIn.Number.HalfEven

namespace CheckIn

/-- An IEEE 754 double, given by its 64 bits. -/
structure Binary64 where
  /-- Sign, eleven bits of exponent and 52 bits of fraction, from the top. -/
  bits : UInt64
deriving DecidableEq, Repr, Inhabited

namespace Binary64

/-! ## Fields -/

/-- The weight `2 ^ 52` of the bit above the fraction, which a normal number does not store. -/
def hiddenBit : Nat := 0x10000000000000

/-- The sign bit, set also for the negative zero and for some not-a-numbers. -/
def isNegative (x : Binary64) : Bool := decide (0x8000000000000000 ≤ x.bits.toNat)

/-- The biased exponent: `0` for zeros and subnormals, `2047` for what is not finite. -/
def exponentField (x : Binary64) : Nat := x.bits.toNat / hiddenBit % 2048

/-- The 52 bits below the exponent. -/
def fraction (x : Binary64) : Nat := x.bits.toNat % hiddenBit

def isFinite (x : Binary64) : Bool := decide (x.exponentField ≠ 2047)

def isNaN (x : Binary64) : Bool := decide (x.exponentField = 2047 ∧ x.fraction ≠ 0)

def isInfinite (x : Binary64) : Bool := decide (x.exponentField = 2047 ∧ x.fraction = 0)

/-! ## Magnitude -/

/-- The number of units of `2 ^ -1074` that make one. -/
def unitsPerOne : Nat := Nat.pow 2 1074

/-- The significand: the fraction, with the hidden bit of a normal number. -/
def significand (x : Binary64) : Nat :=
  if x.exponentField = 0 then x.fraction else hiddenBit + x.fraction

/-- The distance from a double to the next larger one is `2 ^ gap` units. -/
def gap (x : Binary64) : Nat := x.exponentField - 1

/-- The magnitude of a finite double, in units of `2 ^ -1074`. -/
def units (x : Binary64) : Nat := x.significand * Nat.pow 2 x.gap

/-! ## Rounding -/

/-- The bits of positive infinity, the first pattern that is no finite magnitude. -/
def infinityBits : Nat := 2047 * hiddenBit

/-- The double with the given sign and magnitude bits; a magnitude too large becomes infinity. -/
def ofMagnitude (negative : Bool) (magnitude : Nat) : Binary64 :=
  ⟨UInt64.ofNat (min magnitude infinityBits + if negative then 0x8000000000000000 else 0)⟩

/-- The double nearest to `num / den`, ties to the even significand.

With `n` units below the quotient, the lowest bit that fits has weight `2 ^ shift`.  The bits of
the magnitude count the significands, so `shift * 2 ^ 52` added to the rounded significand is
the pattern of subnormals and normal numbers alike, also when rounding carries. -/
def ofRatio (negative : Bool) (num den : Nat) : Binary64 :=
  let shift := Nat.log2 (num * unitsPerOne / den) - 52
  ofMagnitude negative
    (shift * hiddenBit + divHalfEven (num * unitsPerOne) (den * Nat.pow 2 shift))

/-- The double nearest to a natural number. -/
def ofNat (n : Nat) : Binary64 := ofRatio false n 1

def zero : Binary64 := ⟨0⟩

def neg (x : Binary64) : Binary64 := ⟨x.bits ^^^ 0x8000000000000000⟩

/-! ## Arithmetic on finite magnitudes -/

/-- The rounded sum of two magnitudes. -/
def addMagnitude (x y : Binary64) : Binary64 := ofRatio false (x.units + y.units) unitsPerOne

/-- The rounded product of two magnitudes. -/
def mulMagnitude (x y : Binary64) : Binary64 :=
  ofRatio false (x.units * y.units) (unitsPerOne * unitsPerOne)

/-- The rounded quotient of two magnitudes, the second one not zero. -/
def divMagnitude (x y : Binary64) : Binary64 := ofRatio false x.units y.units

/-! ## Comparison -/

/-- Equality of numbers: no not-a-number equals anything, and the two zeros are equal. -/
def sameNumber (x y : Binary64) : Bool :=
  !x.isNaN && !y.isNaN &&
    (decide (x.bits = y.bits) || (decide (x.units = 0) && decide (y.units = 0)))

/-- Below zero: negative and neither zero nor a not-a-number. -/
def isBelowZero (x : Binary64) : Bool :=
  x.isNegative && !x.isNaN && decide (x.units ≠ 0)

theorem sameNumber_self {x : Binary64} (h : x.isNaN = false) : x.sameNumber x = true := by
  simp [sameNumber, h]

theorem sameNumber_comm (x y : Binary64) : x.sameNumber y = y.sameNumber x := by
  simp [sameNumber, Bool.and_comm, eq_comm]

end Binary64

end CheckIn
