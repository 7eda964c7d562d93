/-
# Collaborators that only keep a log

An agent without a scheduler, a log collector and a reconciler writes down what it was asked for,
and succeeds.
-/
import CheckIn.Log

namespace CheckIn.LoggingCollaborators

/-- What the scheduler writes about a list of schedules. -/
def apply (schedules : List Schedule) : List LogRecord :=
  [.schedulesReceived (schedules.map (·.id))]

/-- What the log collector writes about the jobs whose logs are wanted; nothing about none. -/
def collect (ids : List Int64) : List LogRecord :=
  if ids.isEmpty then [] else [.logsRequested ids]

/-- What the reconciler writes about the wanted versions, in the order of the stacks. -/
def reconcile (versions : StackVersions) : List LogRecord :=
  [.stackTargetsReceived versions.sorted]

end CheckIn.LoggingCollaborators
