/-
# Log records

What the agent reports while it runs.  A record is kept as the fact that it reports; its level,
its message and its fields follow from that.
-/
import CheckIn.Duration
import CheckIn.Error
import CheckIn.Response

namespace CheckIn

/-- How severe a record is, the most severe first. -/
inductive LogLevel
  | error
  | warn
  | info
  | debug
  | trace
deriving DecidableEq, Repr

namespace LogLevel

/-- The position of a level, counted from the most severe one. -/
def rank : LogLevel → Nat
  | error => 1
  | warn => 2
  | info => 3
  | debug => 4
  | trace => 5

/-- Whether a log that goes down to `limit` shows records of a level. -/
def shows (limit level : LogLevel) : Bool := decide (level.rank ≤ limit.rank)

def name : LogLevel → String
  | error => "ERROR"
  | warn => "WARN"
  | info => "INFO"
  | debug => "DEBUG"
  | trace => "TRACE"

end LogLevel

/-- The value of a field of a record. -/
inductive LogValue
  | text (value : String)
  | integer (value : Int)
  | real (value : Binary64)
deriving DecidableEq, Repr

/-- A step of a poll cycle that can fail. -/
inductive CycleStep
  /-- Sending the request and reading the answer. -/
  | fetch
  /-- Decoding and decrypting the credentials of the tunnel. -/
  | credentials
  | tunnelOpen
  | tunnelClose
  /-- Handing the schedules over. -/
  | schedule
  /-- Adopting another interval. -/
  | cadence
  /-- Handing the stack targets over. -/
  | stackReconcile
deriving DecidableEq, Repr

/-- The name of a step in records. -/
def CycleStep.name : CycleStep → String
  | fetch => "fetch"
  | credentials => "credentials"
  | tunnelOpen => "tunnel_open"
  | tunnelClose => "tunnel_close"
  | schedule => "schedule"
  | cadence => "cadence"
  | stackReconcile => "stack_reconcile"

/-- What a record reports. -/
inductive LogRecord
  /-- A step of a cycle failed, and the cycle goes on. -/
  | stepFailed (step : CycleStep) (reason : String)
  /-- Activity was reported before the last report had been taken. -/
  | activityCoalesced
  /-- Activity was reported while nobody watches the tunnel. -/
  | activityDropped
  | watchStarted (interval timeout : Duration)
  | watchEnded
  /-- The time since the last activity, in nanoseconds. -/
  | tunnelUnused (nanos : Nat)
  /-- The tunnel is closed after so many nanoseconds without activity. -/
  | tunnelExpired (nanos : Nat)
  | idleRequested (status : Status)
  | tunnelRequested
  | tunnelRefused (reason : String)
  | tunnelEstablished (port : Nat)
  | intervalIgnored (seconds : Binary64)
  | intervalChanged (old new : Binary64)
  | startIgnored
  | stopIgnored
  | pollingPrepared (interval : Duration) (url : String)
  /-- A cycle ended with an error. -/
  | cycleFailed (error : AgentError)
  | pollingStopped
  | pollLoopEnded
  | answerReceived (response : Response)
  | platformSent (wireValue : Nat)
  | answerRefused (code : UInt16)
  | schedulesReceived (ids : List Int64)
  | logsRequested (ids : List Int64)
  | stackTargetsReceived (targets : List (Int64 × Int64))

namespace LogRecord

def level : LogRecord → LogLevel
  | stepFailed _ _ | tunnelRefused _ | cycleFailed _ => .error
  | intervalIgnored _ => .warn
  | tunnelExpired _ | tunnelEstablished _ | logsRequested _ => .info
  | activityCoalesced => .trace
  | activityDropped | watchStarted _ _ | watchEnded | tunnelUnused _ | idleRequested _
  | tunnelRequested | intervalChanged _ _ | startIgnored | stopIgnored | pollingPrepared _ _
  | pollingStopped | pollLoopEnded | answerReceived _ | platformSent _ | answerRefused _
  | schedulesReceived _ | stackTargetsReceived _ => .debug

def message : LogRecord → String
  | stepFailed _ _ => "Cycle step failed, continuing"
  | activityCoalesced => "Activity signal coalesced"
  | activityDropped => "Activity reaper is not running, signal dropped"
  | watchStarted _ _ => "Starting activity monitoring loop"
  | watchEnded => "Activity monitoring loop shutting down"
  | tunnelUnused _ => "Tunnel activity monitoring"
  | tunnelExpired _ => "Shutting down tunnel after inactivity period"
  | idleRequested _ => "Idle status detected, shutting down tunnel"
  | tunnelRequested => "Required status detected, creating reverse tunnel"
  | tunnelRefused _ => "Unable to create tunnel"
  | tunnelEstablished _ => "Reverse tunnel established"
  | intervalIgnored _ => "Ignoring invalid poll interval from controller"
  | intervalChanged _ _ => "Updating poll interval"
  | startIgnored => "Poll loop is not running, start ignored"
  | stopIgnored => "Poll loop is not running, stop ignored"
  | pollingPrepared _ _ => "Starting short-polling client"
  | cycleFailed _ => "An error occurred during short poll"
  | pollingStopped => "Stopping short-polling client"
  | pollLoopEnded => "Poll loop shutting down"
  | answerReceived _ => "Poll response received"
  | platformSent _ => "Sending agent platform header"
  | answerRefused _ => "Poll request failure"
  | schedulesReceived _ => "Schedules received"
  | logsRequested _ => "Log collection requested"
  | stackTargetsReceived _ => "Stack targets received"

/-- Items in brackets, with commas between them. -/
def bracketed (items : List String) : String := "[" ++ ", ".intercalate items ++ "]"

/-- A list of identifiers. -/
def idList (ids : List Int64) : String := bracketed (ids.map fun id => decimalInt id.toInt)

/-- A list of pairs. -/
def pairList (pairs : List (Int64 × Int64)) : String :=
  bracketed (pairs.map fun pair =>
    "(" ++ decimalInt pair.1.toInt ++ ", " ++ decimalInt pair.2.toInt ++ ")")

def fields : LogRecord → List (String × LogValue)
  | stepFailed step reason => [("step", .text step.name), ("error", .text reason)]
  | watchStarted interval timeout =>
    [("monitoring_interval_seconds", .real interval.toBinary64),
      ("inactivity_timeout", .text timeout.short)]
  | tunnelUnused nanos | tunnelExpired nanos =>
    [("tunnel_last_activity_seconds", .real (Duration.secondsOfNanos nanos))]
  | idleRequested status => [("status", .text status.text)]
  | tunnelRefused reason => [("error", .text reason)]
  | tunnelEstablished port => [("remote_port", .integer port)]
  | intervalIgnored seconds => [("checkin_interval_seconds", .real seconds)]
  | intervalChanged old new => [("old_interval", .real old), ("new_interval", .real new)]
  | pollingPrepared interval url =>
    [("poll_interval_seconds", .real interval.toBinary64), ("server_url", .text url)]
  | cycleFailed error => [("error", .text error.message)]
  | answerReceived response =>
    [("status", .text response.status.text), ("port", .integer response.port.toInt),
      ("schedule_count", .integer response.schedules.length),
      ("checkin_interval_seconds", .real response.checkin)]
  | platformSent wireValue => [("header", .integer wireValue)]
  | answerRefused code => [("response_code", .integer code.toNat)]
  | schedulesReceived ids =>
    [("schedule_count", .integer ids.length), ("ids", .text (idList ids))]
  | logsRequested ids => [("job_ids", .text (idList ids))]
  | stackTargetsReceived targets =>
    [("stack_count", .integer targets.length), ("targets", .text (pairList targets))]
  | activityCoalesced | activityDropped | watchEnded | tunnelRequested | startIgnored | stopIgnored
  | pollingStopped | pollLoopEnded => []

end LogRecord

end CheckIn
