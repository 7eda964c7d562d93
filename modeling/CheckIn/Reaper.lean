/-
# The reaper of idle tunnels

The reaper looks at the tunnel at fixed instants, whatever the polling does, and closes a tunnel
that has not been used for some time.  When the tunnel was last used it learns from reports of
activity, each of which it takes as soon as it waits for something.
-/
import CheckIn.World

namespace CheckIn

/-- What the reaper is doing. -/
inductive ReaperPhase
  | notStarted
  /-- Waiting for the next check or for a report. -/
  | watching (ticker : Ticker)
  /-- Closing the tunnel until an instant in milliseconds. -/
  | closing (ticker : Ticker) (done : Nat)
  | ended
deriving DecidableEq, Repr

/-- The reaper of a transport. -/
structure Reaper where
  /-- The time from one check to the next. -/
  interval : Duration
  /-- The time without activity after which a tunnel is closed. -/
  timeout : Duration
  phase : ReaperPhase := .notStarted
  /-- When the last report was taken, in nanoseconds. -/
  lastActivity : Option Nat := none
deriving DecidableEq

namespace Reaper

/-- The time from one check of an agent's tunnel to the next. -/
def checkInterval : Duration := .ofSeconds 30

/-- Whether the reaper was started and has not ended. -/
def isRunning (reaper : Reaper) : Bool :=
  match reaper.phase with
  | .watching _ | .closing _ _ => true
  | .notStarted | .ended => false

/-- Starts the reaper; its first check is one interval from now. -/
def start (reaper : Reaper) (world : World) : Reaper × World :=
  ({ reaper with phase := .watching (.every reaper.interval.nanos world.nanos) },
    world.note (.watchStarted reaper.interval reaper.timeout))

/-- The reaper leaves, and with it the place for reports. -/
def leave (reaper : Reaper) (world : World) : Reaper × World :=
  ({ reaper with phase := .ended }, world.stopWatching)

/-- Looks at the tunnel, after a tick has been taken. -/
def check (reaper : Reaper) (ticker : Ticker) (world : World) : Reaper × World :=
  match reaper.lastActivity with
  | none => ({ reaper with phase := .watching ticker }, world)
  | some last =>
    if world.hasTunnel then
      let unused := world.nanos - last
      let world := world.note (.tunnelUnused unused)
      if world.control.transport.isOpen &&
          idleExpired reaper.lastActivity world.nanos reaper.timeout.nanos then
        ({ reaper with phase := .closing ticker (world.now + world.closeDelay) },
          world.emit [.log (.tunnelExpired unused), .closeTunnel])
      else ({ reaper with phase := .watching ticker }, world)
    else ({ reaper with phase := .watching ticker }, world)

/-- The end of closing.  Outside of a cycle there is nothing that an error could end. -/
def finishClose (reaper : Reaper) (ticker : Ticker) (world : World) : Reaper × World :=
  let (_, control, events) := world.control.finishClose
  ({ reaper with phase := .watching ticker }, { world with control }.emit events)

/-- Takes a report of activity: the tunnel was last used now. -/
def takeReport (reaper : Reaper) (world : World) : Reaper × World :=
  ({ reaper with lastActivity := some world.nanos }, world.takeReport)

/-- Everything that the reaper can do now.  Where there is a choice, which of them it does first
is not determined by the reaper itself. -/
def moves (reaper : Reaper) (world : World) : List (Reaper × World) :=
  match reaper.phase with
  | .notStarted | .ended => []
  | .closing ticker done =>
    if done ≤ world.now then [reaper.finishClose ticker world] else []
  | .watching ticker =>
    (if world.cancelled then [reaper.leave (world.note .watchEnded)] else []) ++
      (if world.control.activity.pending then [reaper.takeReport world] else []) ++
      (if ticker.isDue world.now then [reaper.check (ticker.tick world.nanos) world] else [])

/-- What the reaper does now, if there is anything: reports come before checks. -/
def step? (reaper : Reaper) (world : World) : Option (Reaper × World) :=
  (reaper.moves world).head?

/-- What the reaper does is one of the things that it can do. -/
theorem mem_moves_of_step? {reaper : Reaper} {world : World} {next : Reaper × World}
    (h : reaper.step? world = some next) : next ∈ reaper.moves world :=
  List.mem_of_head? h

/-- When the reaper has something to do next, in milliseconds. -/
def wake (reaper : Reaper) : Option Nat :=
  match reaper.phase with
  | .notStarted | .ended => none
  | .closing _ done => some done
  | .watching ticker => some ticker.dueAt

/-- How much of its past the reaper can have to make up for now, in nanoseconds. -/
def backlog (reaper : Reaper) (world : World) : Nat :=
  match reaper.phase with
  | .notStarted | .ended => 0
  | .closing ticker _ | .watching ticker => world.nanos + 1 - ticker.deadline

/-- Does what is due now, at most `fuel` things of it. -/
def settleFor : (fuel : Nat) → Reaper → World → Reaper × World
  | 0, reaper, world => (reaper, world)
  | fuel + 1, reaper, world =>
    match reaper.step? world with
    | some (reaper, world) => settleFor fuel reaper world
    | none => (reaper, world)

/-- Does what is due now.  A check moves the deadline on, and closing and a report come between
two checks at most. -/
def settle (reaper : Reaper) (world : World) : Reaper × World :=
  settleFor (3 * reaper.backlog world + 4) reaper world

/-- A reaper in its world, through time. -/
def process : Process (Reaper × World) where
  now state := state.2.now
  moveTo instant state := (state.1, { state.2 with now := instant })
  wake state := state.1.wake
  settle state := state.1.settle state.2

end Reaper

end CheckIn
