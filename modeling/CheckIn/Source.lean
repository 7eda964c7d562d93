/-
# Answers to come

What the controller will answer is decided in advance: a list of answers with the time that each
takes, and one for all requests after those.
-/
import CheckIn.Error
import CheckIn.Response

namespace CheckIn

/-- The answers to the requests that an agent will make. -/
structure Source where
  /-- The next answers, or why there will be none. -/
  answers : List (Except PollError Response) := []
  /-- How many milliseconds the next requests take. -/
  delays : List Nat := []
  /-- The answer when there are no more. -/
  fallback : Response := {}

instance : Inhabited Source := ⟨{}⟩

namespace Source

/-- Adds an answer, or the status of a refusal, that takes some time. -/
def push (source : Source) (answer : Except UInt16 Response) (delay : Nat) : Source :=
  { source with
    answers := source.answers ++ [answer.mapError .status], delays := source.delays ++ [delay] }

/-- The next answer and its delay, and those that remain. -/
def next (source : Source) : Except PollError Response × Nat × Source :=
  let rest := { source with answers := source.answers.tail, delays := source.delays.tail }
  (source.answers.head?.getD (.ok source.fallback), source.delays.head?.getD 0, rest)

end Source

end CheckIn
