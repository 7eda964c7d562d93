/-
# What a failed step does to a cycle

Each step of a poll cycle can fail.  A failure either ends the cycle, so that the next tick
starts afresh, or is only reported, and the cycle goes on.  The table is here and nowhere else.
-/
import CheckIn.Log

namespace CheckIn

/-- What happens when a step fails. -/
inductive ErrorPolicy
  /-- The cycle ends with the error. -/
  | propagate
  /-- The error is reported, and the cycle goes on. -/
  | logAndContinue
deriving DecidableEq, Repr

namespace CycleStep

/-- The policy of a step.  An interval that could not be adopted is met again in the next cycle,
a tunnel that could not be closed too. -/
def policy : CycleStep → ErrorPolicy
  | fetch | credentials | tunnelOpen | stackReconcile => .propagate
  | tunnelClose | schedule | cadence => .logAndContinue

/-- Applies the policy of a step to its result: the value, if there is one and the cycle goes
on, and what is reported.  `text` is how an error is shown. -/
def handle {ε α : Type} (step : CycleStep) (text : ε → String) (result : Except ε α) :
    Except ε (Option α) × List LogRecord :=
  match result with
  | .ok value => (.ok (some value), [])
  | .error error =>
    match step.policy with
    | .propagate => (.error error, [])
    | .logAndContinue => (.ok none, [.stepFailed step (text error)])

end CycleStep

end CheckIn
