/-
# Stack targets

The controller lists the stacks it manages, each with the version it should have.  A list with
one identifier twice means the last entry, so the list is folded into a map before anybody
acts on it.
-/
import CheckIn.Json.Record
import CheckIn.Json.Writer

namespace CheckIn
open Json

/-- The version that a stack should have. -/
structure StackTarget where
  id : Int64
  version : Int64
deriving DecidableEq, Repr, Inhabited

namespace StackTarget

/-- A target of which some fields have been read. -/
structure Draft where
  id : Option Int64 := none
  version : Option Int64 := none

/-- The two fields of a target; a list has to give both. -/
def record : Record Draft where
  wanted := "struct StackStatus"
  fields := [
    .of "ID" (·.id) (fun v d => { d with id := some v }) fun _ => signed,
    .of "Version" (·.version) (fun v d => { d with version := some v }) fun _ => signed]
  allInList := true

/-- Reads a target. -/
def read (room : Nat) : Reader StackTarget := do
  let draft ← record.read room {}
  let id ← required "ID" draft.id
  let version ← required "Version" draft.version
  return ⟨id, version⟩

/-- Writes a target. -/
def write (target : StackTarget) : List Char :=
  writeObject [("ID", (decimalInt target.id.toInt).toList),
    ("Version", (decimalInt target.version.toInt).toList)]

end StackTarget

/-! ## The map of versions -/

/-- Target versions by stack identifier. -/
structure StackVersions where
  /-- The identifiers with their versions. -/
  entries : List (Int64 × Int64)
  /-- No identifier occurs twice. -/
  nodup : (entries.map Prod.fst).Nodup
deriving Repr

namespace StackVersions

def empty : StackVersions := ⟨[], List.nodup_nil⟩

instance : Inhabited StackVersions := ⟨empty⟩

/-- Sets the value at a key in a list of entries, at the end if the key is new. -/
def setEntry (id version : Int64) : List (Int64 × Int64) → List (Int64 × Int64)
  | [] => [(id, version)]
  | entry :: rest => if entry.1 = id then (id, version) :: rest else entry :: setEntry id version rest

theorem fst_mem_setEntry {id version key : Int64} {entries : List (Int64 × Int64)} :
    key ∈ (setEntry id version entries).map Prod.fst ↔
      key = id ∨ key ∈ entries.map Prod.fst := by
  induction entries with
  | nil => simp [setEntry]
  | cons entry rest ih =>
    simp only [setEntry]
    split
    · next h => simp [← h]
    · simp only [List.map_cons, List.mem_cons, ih]
      exact or_left_comm

theorem nodup_setEntry {id version : Int64} {entries : List (Int64 × Int64)}
    (h : (entries.map Prod.fst).Nodup) : ((setEntry id version entries).map Prod.fst).Nodup := by
  induction entries with
  | nil => simp [setEntry]
  | cons entry rest ih =>
    simp only [setEntry]
    rw [List.map_cons, List.nodup_cons] at h
    split
    · next he => simpa [← he] using h
    · next he =>
      rw [List.map_cons, List.nodup_cons, fst_mem_setEntry]
      exact ⟨fun hm => hm.elim he h.1, ih h.2⟩

/-- Sets the version of a stack, in place of an earlier one. -/
def insert (versions : StackVersions) (id version : Int64) : StackVersions :=
  ⟨setEntry id version versions.entries, nodup_setEntry versions.nodup⟩

/-- The version of a stack. -/
def get? (versions : StackVersions) (id : Int64) : Option Int64 :=
  (versions.entries.find? fun entry => entry.1 = id).map Prod.snd

/-- The versions that a list of targets asks for: of several for one stack, the last. -/
def ofTargets (targets : List StackTarget) : StackVersions :=
  targets.foldl (fun versions target => versions.insert target.id target.version) empty

/-- The entries in the order of their identifiers. -/
def sorted (versions : StackVersions) : List (Int64 × Int64) :=
  versions.entries.mergeSort fun a b => decide (a.1 ≤ b.1)

theorem find?_setEntry (id version key : Int64) (entries : List (Int64 × Int64)) :
    ((setEntry id version entries).find? fun entry => entry.1 = key).map Prod.snd =
      if key = id then some version
      else (entries.find? fun entry => entry.1 = key).map Prod.snd := by
  induction entries with
  | nil => by_cases h : key = id <;> simp [setEntry, h, eq_comm]
  | cons entry rest ih =>
    simp only [setEntry]
    split
    · next he =>
      by_cases h : key = id
      · simp [h]
      · have h' : ¬ id = key := fun e => h e.symm
        simp [h, h', he]
    · next he =>
      by_cases h : entry.1 = key
      · have : ¬ key = id := fun e => he (h.trans e)
        simp [h, this]
      · simp only [List.find?_cons, h, decide_false]
        exact ih

/-- A stack has the version that was set last. -/
@[simp] theorem get?_insert (versions : StackVersions) (id version key : Int64) :
    (versions.insert id version).get? key = if key = id then some version else versions.get? key :=
  find?_setEntry id version key versions.entries

end StackVersions

end CheckIn
