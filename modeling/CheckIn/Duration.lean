/-
# Lengths of time

A duration is a whole number of nanoseconds below `2 ^ 64` seconds.  The controller gives
intervals as doubles, so the two conversions between doubles and durations live here, together
with the short text in which log records show a duration.
-/
import CheckIn.Number.Notation

namespace CheckIn

/-- The number of nanoseconds in a second. -/
def nanosPerSecond : Nat := 1000000000

/-- A length of time. -/
structure Duration where
  /-- The whole length, in nanoseconds. -/
  nanos : Nat
  /-- The whole seconds fit into 64 bits. -/
  nanos_lt : nanos < 0x10000000000000000 * nanosPerSecond
deriving DecidableEq

namespace Duration

/-- A whole number of seconds. -/
def ofSeconds (s : UInt64) : Duration :=
  ⟨s.toNat * nanosPerSecond, Nat.mul_lt_mul_of_pos_right s.toNat_lt (by decide)⟩

def zero : Duration := ⟨0, by decide⟩

instance : Inhabited Duration := ⟨zero⟩

def isZero (d : Duration) : Bool := decide (d.nanos = 0)

/-- The whole seconds. -/
def seconds (d : Duration) : Nat := d.nanos / nanosPerSecond

/-- The nanoseconds beyond the whole seconds. -/
def subsecondNanos (d : Duration) : Nat := d.nanos % nanosPerSecond

theorem seconds_lt (d : Duration) : d.seconds < 0x10000000000000000 :=
  Nat.div_lt_of_lt_mul (by rw [Nat.mul_comm]; exact d.nanos_lt)

@[simp] theorem seconds_ofSeconds (s : UInt64) : (ofSeconds s).seconds = s.toNat :=
  Nat.mul_div_cancel _ (by decide)

@[simp] theorem nanos_ofSeconds (s : UInt64) : (ofSeconds s).nanos = s.toNat * nanosPerSecond :=
  rfl

@[ext] theorem ext {a b : Duration} (h : a.nanos = b.nanos) : a = b := by
  cases a; cases b; cases h; rfl

instance : LE Duration := ⟨fun a b => a.nanos ≤ b.nanos⟩

instance (a b : Duration) : Decidable (a ≤ b) := inferInstanceAs (Decidable (a.nanos ≤ b.nanos))

/-! ## Doubles -/

/-- The duration of a number of seconds, rounded to the nearest nanosecond.  A number below
zero, a not-a-number and a number of `2 ^ 64` seconds or more have none. -/
def ofBinary64? (x : Binary64) : Option Duration :=
  if x.isFinite = false ∨ x.isBelowZero then none
  else
    let nanos := divHalfEven (x.units * nanosPerSecond) Binary64.unitsPerOne
    if h : nanos < 0x10000000000000000 * nanosPerSecond then some ⟨nanos, h⟩ else none

/-- A number of nanoseconds as a double of seconds.  The whole seconds and the rest are rounded
on their own, and once more when they are added. -/
def secondsOfNanos (nanos : Nat) : Binary64 :=
  Binary64.addMagnitude (Binary64.ofNat (nanos / nanosPerSecond))
    (Binary64.ofRatio false (nanos % nanosPerSecond) nanosPerSecond)

/-- The duration as a double of seconds. -/
def toBinary64 (d : Duration) : Binary64 := secondsOfNanos d.nanos

/-! ## Text -/

/-- A number of `whole` and `part / 10 ^ places` of a unit, without trailing zeros. -/
def withFraction (whole part places : Nat) (unit : String) : String :=
  let digits := decimalDigits part
  let padded := List.replicate (places - digits.length) '0' ++ digits
  let kept := (padded.reverse.dropWhile (· = '0')).reverse
  decimalNat whole ++ (if kept.isEmpty then "" else String.ofList ('.' :: kept)) ++ unit

/-- The duration in the largest unit of which there is at least one: `20s`, `33.3s`, `1.5ms`. -/
def short (d : Duration) : String :=
  if nanosPerSecond ≤ d.nanos then withFraction d.seconds d.subsecondNanos 9 "s"
  else if 1000000 ≤ d.nanos then withFraction (d.nanos / 1000000) (d.nanos % 1000000) 6 "ms"
  else if 1000 ≤ d.nanos then withFraction (d.nanos / 1000) (d.nanos % 1000) 3 "µs"
  else decimalNat d.nanos ++ "ns"

/-- Seconds and exactly nine digits of nanoseconds. -/
def exact (d : Duration) : String :=
  let digits := decimalDigits d.subsecondNanos
  decimalNat d.seconds ++ "." ++ String.ofList (List.replicate (9 - digits.length) '0' ++ digits)

end Duration

end CheckIn
