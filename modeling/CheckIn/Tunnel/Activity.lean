/-
# Tunnel activity

Who uses the tunnel reports it, and the reaper takes the report when it next looks.  There is
room for one report that has not been taken; a second one adds nothing, because the reaper only
wants to know when the tunnel was last used.
-/
import CheckIn.Log

namespace CheckIn

/-- The way of activity reports to the reaper. -/
structure ActivitySlot where
  /-- Whether anybody is left who can report. -/
  held : Bool := true
  /-- Whether a report waits to be taken. -/
  pending : Bool := false
  /-- Whether a reaper is there to take reports. -/
  watched : Bool := true
deriving DecidableEq, Repr, Inhabited

namespace ActivitySlot

/-- Reports activity of a tunnel.  A closed tunnel has none. -/
def report (slot : ActivitySlot) (isOpen : Bool) : ActivitySlot × List LogRecord :=
  if !slot.held || !isOpen then (slot, [])
  else if !slot.watched then (slot, [.activityDropped])
  else if slot.pending then (slot, [.activityCoalesced])
  else ({ slot with pending := true }, [])

@[simp] theorem held_report (slot : ActivitySlot) (isOpen : Bool) :
    (slot.report isOpen).1.held = slot.held := by
  unfold report
  repeat' split
  all_goals rfl

@[simp] theorem watched_report (slot : ActivitySlot) (isOpen : Bool) :
    (slot.report isOpen).1.watched = slot.watched := by
  unfold report
  repeat' split
  all_goals rfl

/-- A closed tunnel leaves no report. -/
@[simp] theorem report_false (slot : ActivitySlot) : (slot.report false).1 = slot := by
  simp [report]

/-- A report of an open tunnel that is watched waits, whether it is the first one or not. -/
theorem pending_report {slot : ActivitySlot} (hh : slot.held = true) (hw : slot.watched = true) :
    (slot.report true).1.pending = true := by
  cases hp : slot.pending <;> simp [report, hh, hw, hp]

end ActivitySlot

/-- Whether a tunnel last used at one instant has been unused for `timeout` at another.  A tunnel
of which no use is known has not. -/
def idleExpired (lastActivity : Option Nat) (now timeout : Nat) : Bool :=
  match lastActivity with
  | some last => decide (timeout ≤ now - last)
  | none => false

end CheckIn
