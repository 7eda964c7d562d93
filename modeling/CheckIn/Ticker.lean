/-
# Tickers

A ticker has a deadline and a period.  It is due at the first whole millisecond that is not
before its deadline.  When a tick is taken in time, the next deadline is one period after the
old one; when it is taken late, the next deadline is one period after now, so that missed ticks
are not made up for.
-/
import CheckIn.Duration
import CheckIn.Error

namespace CheckIn

/-- The number of nanoseconds in a millisecond. -/
def nanosPerMilli : Nat := 1000000

/-- A repeating deadline; both numbers are nanoseconds. -/
structure Ticker where
  deadline : Nat
  period : Nat
deriving DecidableEq, Repr, Inhabited

namespace Ticker

/-- How late a tick may be taken without being late, in nanoseconds. -/
def tolerance : Nat := 5 * nanosPerMilli

/-- A ticker whose first tick is one period from now. -/
def every (period now : Nat) : Ticker := ⟨now + period, period⟩

/-- The first millisecond at which the ticker is due. -/
def dueAt (ticker : Ticker) : Nat := (ticker.deadline + (nanosPerMilli - 1)) / nanosPerMilli

/-- Whether the ticker is due at an instant in milliseconds. -/
def isDue (ticker : Ticker) (now : Nat) : Bool := decide (ticker.dueAt ≤ now)

/-- The ticker after a tick that is taken at an instant in nanoseconds. -/
def tick (ticker : Ticker) (now : Nat) : Ticker :=
  if ticker.deadline + tolerance < now then { ticker with deadline := now + ticker.period }
  else { ticker with deadline := ticker.deadline + ticker.period }

/-- A ticker is due when its deadline has come. -/
theorem isDue_iff (ticker : Ticker) (now : Nat) :
    ticker.isDue now = true ↔ ticker.deadline ≤ now * nanosPerMilli := by
  rw [isDue, decide_eq_true_iff, dueAt]
  unfold nanosPerMilli
  omega

/-- A tick moves the deadline on by the period at least. -/
theorem deadline_add_period_le_tick (ticker : Ticker) (now : Nat) :
    ticker.deadline + ticker.period ≤ (ticker.tick now).deadline := by
  unfold tick
  split
  · next h => simp only; omega
  · exact Nat.le_refl _

@[simp] theorem period_tick (ticker : Ticker) (now : Nat) :
    (ticker.tick now).period = ticker.period := by
  unfold tick
  split <;> rfl

/-- The ticker of an interval in seconds.  There is none for an interval that is no duration or
zero, or that ends after the clock does; instants are in nanoseconds. -/
def start (clockEnd now : Nat) (seconds : Binary64) : Except PollError Ticker :=
  match Duration.ofBinary64? seconds with
  | none => .error (.invalidInterval seconds)
  | some period =>
    if period.isZero ∨ clockEnd < now + period.nanos then .error (.invalidInterval seconds)
    else .ok (every period.nanos now)

end Ticker

end CheckIn
