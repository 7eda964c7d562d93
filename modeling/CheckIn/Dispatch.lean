/-
# Dispatching an answer

Everything in an answer that does not concern the tunnel is put into effect in a fixed order: the
schedules, the requests for logs, the interval of the next check-in, and the stack targets.  A
failure of the scheduler or of the interval is only reported; a failure of the reconciler ends
the cycle.
-/
import CheckIn.Config.Basic
import CheckIn.Event
import CheckIn.Policy

namespace CheckIn

/-- How the subsystems that take parts of an answer fail, if they do. -/
structure Collaborators where
  /-- Whether the scheduler refuses the schedules. -/
  schedulerFails : Bool := false
  /-- Whether the reconciler refuses the stack targets. -/
  reconcilerFails : Bool := false
  /-- What the scheduler says when it refuses. -/
  schedulerFault : String := "invalid cron expression"
  /-- What the reconciler says when it refuses. -/
  reconcilerFault : String := "stack deployment failed"
deriving DecidableEq, Repr, Inhabited

namespace Collaborators

/-- The answer of the scheduler to a list of schedules. -/
def scheduler (collaborators : Collaborators) : Except String Unit :=
  if collaborators.schedulerFails then .error collaborators.schedulerFault else .ok ()

/-- The answer of the reconciler to a map of versions. -/
def reconciler (collaborators : Collaborators) : Except String Unit :=
  if collaborators.reconcilerFails then .error collaborators.reconcilerFault else .ok ()

end Collaborators

/-- What a dispatcher needs of the owner of the poll interval. -/
structure CadenceControl (κ : Type) where
  /-- The interval in force, in seconds. -/
  interval : κ → Binary64
  /-- Tries to adopt another interval. -/
  adopt : Binary64 → κ → Except PollError Unit × κ × List Event

/-- Whether an interval can be polled at: it is a duration, not zero, and not too long. -/
def validInterval (seconds : Binary64) : Bool :=
  match Duration.ofBinary64? seconds with
  | some period => !period.isZero && decide (period ≤ Config.maxPollFrequency)
  | none => false

namespace Dispatch

variable {κ : Type}

/-- Hands the schedules over. -/
def applySchedules (collaborators : Collaborators) (response : Response) :
    Except DispatchError (Option Unit) × List Event :=
  let (handled, records) := CycleStep.schedule.handle DispatchError.message
    (collaborators.scheduler.mapError .schedule)
  (handled, .apply response.schedules :: records.map .log)

/-- Adopts the interval of an answer, if it is another one and can be polled at. -/
def adoptInterval (control : CadenceControl κ) (checkin : Binary64) (state : κ) :
    Except DispatchError Unit × κ × List Event :=
  let current := control.interval state
  if checkin.sameNumber current then (.ok (), state, [])
  else if !validInterval checkin then (.ok (), state, [.log (.intervalIgnored checkin)])
  else
    let (adopted, state, events) := control.adopt checkin state
    let (handled, records) :=
      CycleStep.cadence.handle DispatchError.message (adopted.mapError (.cadence checkin))
    (handled.map fun _ => (), state,
      .log (.intervalChanged current checkin) :: (events ++ records.map .log))

/-- Hands the stack targets over, if the answer speaks of stacks. -/
def reconcileStacks (collaborators : Collaborators) (response : Response) :
    Except DispatchError Unit × List Event :=
  match response.stackVersions with
  | none => (.ok (), [])
  | some versions =>
    let (handled, records) := CycleStep.stackReconcile.handle DispatchError.message
      (collaborators.reconciler.mapError .stackReconcile)
    (handled.map fun _ => (), .reconcile versions :: records.map .log)

/-- Puts an answer into effect. -/
def dispatch (collaborators : Collaborators) (control : CadenceControl κ) (response : Response)
    (state : κ) : Except DispatchError Unit × κ × List Event :=
  match applySchedules collaborators response with
  | (.error error, events) => (.error error, state, events)
  | (.ok _, applied) =>
    let collected : Event := .collect response.logRequests
    match adoptInterval control response.checkin state with
    | (.error error, state, events) => (.error error, state, applied ++ collected :: events)
    | (.ok (), state, adopted) =>
      let (result, reconciled) := reconcileStacks collaborators response
      (result, state, applied ++ collected :: (adopted ++ reconciled))

end Dispatch

end CheckIn
