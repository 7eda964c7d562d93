/-
# The cadence of polling

The interval between polls, the ticker that keeps it, and the time that a request may take belong
together and change together, or not at all.
-/
import CheckIn.Dispatch
import CheckIn.Ticker

namespace CheckIn

/-- The cadence in force. -/
structure Cadence where
  /-- The interval in seconds. -/
  interval : Binary64
  ticker : Ticker
  /-- The time that a request may take. -/
  timeout : Duration
deriving DecidableEq

namespace Cadence

/-- The cadence with which polling begins. -/
def start (clockEnd now : Nat) (seconds : Binary64) (timeout : Duration) :
    Except PollError Cadence := do
  return ⟨seconds, ← Ticker.start clockEnd now seconds, timeout⟩

/-- Tries to adopt another interval.  `refusal` is the error with which the source of answers
refuses another timeout, if it does. -/
def adopt (clockEnd now : Nat) (refusal : Option PollError) (seconds : Binary64)
    (cadence : Cadence) : Except PollError Unit × Cadence × List Event :=
  match Ticker.start clockEnd now seconds, Duration.ofBinary64? seconds with
  | .ok ticker, some timeout =>
    match refusal with
    | some error => (.error error, cadence, [.setTimeout timeout])
    | none => (.ok (), ⟨seconds, ticker, timeout⟩, [.setTimeout timeout])
  | .ok _, none => (.error (.invalidInterval seconds), cadence, [])
  | .error error, _ => (.error error, cadence, [])

/-- The cadence as the dispatcher sees it. -/
def control (clockEnd now : Nat) (refusal : Option PollError) : CadenceControl Cadence where
  interval := Cadence.interval
  adopt := adopt clockEnd now refusal

end Cadence

end CheckIn
