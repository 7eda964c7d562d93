/-
# Answers of the controller

One answer tells the agent everything it has to do: about the tunnel, the schedules, the next
check-in and the stacks.  Every field may be missing, and then has a default; a missing list of
stacks is not the same as an empty one.
-/
import CheckIn.Schedule
import CheckIn.Stack
import CheckIn.Status

namespace CheckIn
open Json

/-- The body of an answer. -/
structure Response where
  status : Status := .unspecified
  /-- The port wanted on the tunnel server; its range is checked only when a tunnel is opened. -/
  port : Int64 := 0
  /-- The jobs, in the order in which they are listed. -/
  schedules : List Schedule := []
  /-- The number of seconds from one check-in to the next. -/
  checkin : Binary64 := .zero
  /-- The encrypted credentials of the tunnel. -/
  credentials : String := ""
  /-- The wanted versions of the stacks; none if the answer does not speak of stacks. -/
  stackTargets : Option (List StackTarget) := none
deriving Repr, Inhabited

namespace Response

/-- The identifiers of the jobs whose logs are wanted, in the order of the list. -/
def logRequests (response : Response) : List Int64 :=
  (response.schedules.filter (·.collectLogs)).map (·.id)

/-- The wanted versions of the stacks as a map, if the answer speaks of stacks. -/
def stackVersions (response : Response) : Option StackVersions :=
  response.stackTargets.map StackVersions.ofTargets

/-! ## Reading -/

/-- An answer of which some fields have been read. -/
structure Draft where
  status : Option Status := none
  port : Option Int64 := none
  schedules : Option (List Schedule) := none
  checkin : Option Binary64 := none
  credentials : Option String := none
  stackTargets : Option (Option (List StackTarget)) := none

/-- The schedules; `null` stands for none. -/
def readSchedules (room : Nat) : Reader (List Schedule) := do
  return (← optional (sequence room Schedule.read)).getD []

/-- The fields of an answer. -/
def record : Record Draft where
  wanted := "struct PollResponse"
  fields := [
    .of "status" (·.status) (fun v d => { d with status := some v }) fun _ => Status.read,
    .of "port" (·.port) (fun v d => { d with port := some v }) fun _ => signed,
    .of "schedules" (·.schedules) (fun v d => { d with schedules := some v }) readSchedules,
    .of "checkin" (·.checkin) (fun v d => { d with checkin := some v }) fun _ => real,
    .of "credentials" (·.credentials) (fun v d => { d with credentials := some v })
      fun _ => text "a string",
    .of "stacks" (·.stackTargets) (fun v d => { d with stackTargets := some v })
      fun room => optional (sequence room StackTarget.read)]
  allInList := false

/-- An answer from its draft: missing fields have their defaults. -/
def ofDraft (draft : Draft) : Response where
  status := draft.status.getD .unspecified
  port := draft.port.getD 0
  schedules := draft.schedules.getD []
  checkin := draft.checkin.getD .zero
  credentials := draft.credentials.getD ""
  stackTargets := draft.stackTargets.getD none

/-- Reads an answer. -/
def read (room : Nat) : Reader Response := do return ofDraft (← record.read room {})

/-- The answer that a body holds. -/
def ofBytes (body : List UInt8) : Except Json.Error Response := (read nestingRoom).whole body

end Response

end CheckIn
