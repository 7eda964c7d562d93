/-
# The world of a running agent

The clock, the transport and the journal are shared by the two loops of the agent.  Time goes
on in whole milliseconds; nothing happens between two instants at which something is due, so a
run goes from one such instant to the next.
-/
import CheckIn.Ticker
import CheckIn.Tunnel.Reaction

namespace CheckIn

/-- What the loops of an agent share. -/
structure World where
  /-- The milliseconds since the start. -/
  now : Nat := 0
  /-- Whether the agent was given a transport. -/
  hasTunnel : Bool := true
  control : TunnelControl := ⟨{}, {}⟩
  /-- How many milliseconds closing takes. -/
  closeDelay : Nat := 0
  /-- Whether the loops have been told to end. -/
  cancelled : Bool := false
  /-- What has happened and when, the last first. -/
  journal : List (Nat × Event) := []

instance : Inhabited World := ⟨{}⟩

namespace World

/-- The instant in nanoseconds. -/
def nanos (world : World) : Nat := world.now * nanosPerMilli

/-- Adds events of this instant to the journal. -/
def emit (world : World) (events : List Event) : World :=
  { world with journal := (events.map (world.now, ·)).reverse ++ world.journal }

/-- Adds a record to the journal. -/
def note (world : World) (record : LogRecord) : World := world.emit [.log record]

/-- Reports activity of the tunnel, if there is a transport. -/
def reportActivity (world : World) : World :=
  if world.hasTunnel then
    let (activity, records) := world.control.activity.report world.control.transport.isOpen
    { world with control := { world.control with activity } }.emit (records.map .log)
  else world

/-- The world with a change of the way of activity reports. -/
def changeActivity (world : World) (change : ActivitySlot → ActivitySlot) : World :=
  { world with control := { world.control with activity := change world.control.activity } }

/-- The world with a report of activity taken. -/
def takeReport (world : World) : World := world.changeActivity ({ · with pending := false })

/-- The world without anybody who takes reports of activity. -/
def stopWatching (world : World) : World := world.changeActivity ({ · with watched := false })

/-- The world without anybody who reports activity. -/
def stopReporting (world : World) : World := world.changeActivity ({ · with held := false })

/-- The world with a change of the transport from outside. -/
def changeTransport (world : World) (change : Transport → Transport) : World :=
  { world with control := { world.control with transport := change world.control.transport } }

/-! Events only make the journal longer. -/

variable (world : World) (events more : List Event) (record : LogRecord)

theorem note_eq_emit : world.note record = world.emit [.log record] := rfl

@[simp] theorem now_emit : (world.emit events).now = world.now := rfl

@[simp] theorem nanos_emit : (world.emit events).nanos = world.nanos := rfl

@[simp] theorem hasTunnel_emit : (world.emit events).hasTunnel = world.hasTunnel := rfl

@[simp] theorem control_emit : (world.emit events).control = world.control := rfl

@[simp] theorem closeDelay_emit : (world.emit events).closeDelay = world.closeDelay := rfl

@[simp] theorem cancelled_emit : (world.emit events).cancelled = world.cancelled := rfl

@[simp] theorem journal_emit :
    (world.emit events).journal = (events.map (world.now, ·)).reverse ++ world.journal := rfl

@[simp] theorem emit_nil : world.emit [] = world := rfl

theorem emit_emit : (world.emit events).emit more = world.emit (events ++ more) := by
  simp [emit]

end World

/-! ## Going through time -/

/-- Something that runs through time. -/
structure Process (σ : Type) where
  /-- The instant. -/
  now : σ → Nat
  /-- Sets the instant. -/
  moveTo : Nat → σ → σ
  /-- The next instant at which something is due, if nothing is due now. -/
  wake : σ → Option Nat
  /-- Does all that is due now. -/
  settle : σ → σ

namespace Process

variable {σ : Type}

/-- Goes to a later instant, and does on the way all that comes due, in at most `fuel` steps. -/
def runTo (process : Process σ) (target : Nat) : (fuel : Nat) → σ → σ
  | 0, state => state
  | fuel + 1, state =>
    match process.wake state with
    | some instant =>
      if instant ≤ target then
        runTo process target fuel
          (process.settle (process.moveTo (max instant (process.now state)) state))
      else process.settle (process.moveTo target state)
    | none => process.settle (process.moveTo target state)

/-- Goes on for a number of milliseconds.  Each step but the last goes on by at least one. -/
def advance (process : Process σ) (millis : Nat) (state : σ) : σ :=
  process.runTo (process.now state + millis) (millis + 2) state

end Process

end CheckIn
