/-
# Schedules

A schedule is a job that the controller wants to be run.  The agent looks only at its identifier
and at the wish for its logs; everything else is the scheduler's business and is kept as it came.
-/
import CheckIn.Json.Record
import CheckIn.Json.Writer

namespace CheckIn
open Json

/-- A job issued by the controller. -/
structure Schedule where
  id : Int64
  /-- Whether the controller wants the logs of the job. -/
  collectLogs : Bool
  /-- The other fields, in the order of their names, each name once. -/
  definition : List (String × Value)
deriving Repr, Inhabited

namespace Schedule

/-- A schedule of which some fields have been read. -/
structure Draft where
  id : Option Int64 := none
  collectLogs : Option Bool := none
  definition : List (String × Value) := []

/-- Reads one field.  The two known ones may be given once, of the others the last counts. -/
def field (room : Nat) (name : String) (draft : Draft) : Reader Draft :=
  if name = "Id" then
    if draft.id.isSome then refuse (.duplicateField name)
    else do
      separator
      return { draft with id := some (← signed) }
  else if name = "CollectLogs" then
    if draft.collectLogs.isSome then refuse (.duplicateField name)
    else do
      separator
      return { draft with collectLogs := some (← boolean) }
  else do
    separator
    return { draft with definition := insertField name (← value room) draft.definition }

/-- Reads a schedule, which is always an object. -/
def read (room : Nat) : Reader Schedule := fun bytes =>
  match Byte.skipBlanks bytes with
  | Byte.openBrace :: rest =>
    match room with
    | 0 => .error (.flawed .nestingLimit)
    | room + 1 => do
      let (draft, rest) ← object (field room) {} rest
      let (id, rest) ← required "Id" draft.id rest
      return (⟨id, draft.collectLogs.getD false, draft.definition⟩, rest)
  | bytes => misplaced "struct Schedule" bytes

/-- Writes a schedule: the two known fields, then the others. -/
def write (schedule : Schedule) : List Char :=
  writeObject (("Id", (decimalInt schedule.id.toInt).toList) ::
    ("CollectLogs", writeBoolean schedule.collectLogs) :: Value.writeFields schedule.definition)

end Schedule

end CheckIn
