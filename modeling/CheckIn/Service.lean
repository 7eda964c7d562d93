/-
# The poll service

The service runs two loops side by side.  The poll loop waits for ticks and for commands; at each
tick, if it is armed, it goes through one cycle: it fetches the status, reacts with the tunnel
and dispatches the answer.  The reaper watches the tunnel.  Fetching and closing take time, during
which the poll loop takes neither ticks nor commands, so that cycles never overlap.
-/
import CheckIn.Cadence
import CheckIn.Reaper
import CheckIn.Source

namespace CheckIn

/-- What the poll loop is doing. -/
inductive PollPhase
  /-- Waiting for a tick or a command. -/
  | waiting
  /-- Fetching until an instant in milliseconds, at which this answer arrives. -/
  | fetching (done : Nat) (answer : Except PollError Response)
  /-- Closing the tunnel until an instant, on behalf of an answer. -/
  | closing (done : Nat) (response : Response)
  | ended

/-- The two loops with all that they use. -/
structure Service where
  world : World
  /-- The end of the clock, in nanoseconds. -/
  clockEnd : Nat
  identity : TunnelIdentity
  decrypt : Decryptor
  collaborators : Collaborators
  source : Source
  /-- The error with which the source refuses another timeout, if it does. -/
  timeoutRefusal : Option PollError := none
  cadence : Cadence
  /-- Whether ticks are taken. -/
  armed : Bool := false
  /-- Whether a command to start waits to be taken. -/
  startPending : Bool := false
  /-- Whether a command to stop waits to be taken. -/
  stopPending : Bool := false
  phase : PollPhase := .waiting
  reaper : Reaper

namespace Service

/-! ## One cycle -/

/-- The end of a cycle; an error is reported. -/
def endCycle (service : Service) (result : Except AgentError Unit) : Service :=
  let world :=
    match result with
    | .ok () => service.world
    | .error error => service.world.note (.cycleFailed error)
  { service with world, phase := .waiting }

/-- The last part of a cycle: everything in the answer that does not concern the tunnel. -/
def dispatch (service : Service) (response : Response) : Service :=
  let control := Cadence.control service.clockEnd service.world.nanos service.timeoutRefusal
  let (result, cadence, events) :=
    Dispatch.dispatch service.collaborators control response service.cadence
  { service with cadence, world := service.world.emit events }.endCycle
    (result.mapError .dispatch)

/-- The middle part of a cycle: the reaction with the tunnel, if there is a transport. -/
def react (service : Service) (response : Response) : Service :=
  let control := service.world.control
  if !service.world.hasTunnel then service.dispatch response
  else if control.mustClose response.status then
    { service with
      world := service.world.emit (TunnelControl.beginClose response.status)
      phase := .closing (service.world.now + service.world.closeDelay) response }
  else if control.mustOpen response.status then
    let (result, control, events) :=
      control.openFor service.decrypt service.identity response.credentials response.port
    let service := { service with world := { service.world with control }.emit events }
    match result with
    | .ok _ => service.dispatch response
    | .error error => service.endCycle (.error (.tunnel error))
  else service.dispatch response

/-- The end of closing in a cycle. -/
def finishClose (service : Service) (response : Response) : Service :=
  let (result, control, events) := service.world.control.finishClose
  let service := { service with world := { service.world with control }.emit events }
  match result with
  | .ok _ => service.dispatch response
  | .error error => service.endCycle (.error (.tunnel error))

/-- The beginning of a cycle, after a tick has been taken. -/
def beginFetch (service : Service) : Service :=
  let (answer, delay, source) := service.source.next
  { service with
    source
    world := service.world.emit [.fetch service.cadence.timeout]
    phase := .fetching (service.world.now + delay) answer }

/-- The arrival of an answer. -/
def finishFetch (service : Service) (answer : Except PollError Response) : Service :=
  let (result, records) := CycleStep.fetch.handle PollError.message answer
  let service := { service with world := service.world.emit (records.map .log) }
  match result with
  | .error error => service.endCycle (.error (.poll error))
  | .ok none => service.endCycle (.ok ())
  | .ok (some response) =>
    { service with world := service.world.note (.answerReceived response) }.react response

/-! ## The poll loop -/

/-- Takes a command to start: from now on ticks are taken. -/
def takeStart (service : Service) : Service := { service with startPending := false, armed := true }

/-- Takes a command to stop: from now on no ticks are taken. -/
def takeStop (service : Service) : Service :=
  { service with
    stopPending := false, armed := false, world := service.world.note .pollingStopped }

/-- The poll loop ends. -/
def endPolling (service : Service) : Service :=
  { service with phase := .ended, world := service.world.note .pollLoopEnded }

/-- Takes a tick, with which a cycle begins. -/
def takeTick (service : Service) : Service :=
  let ticker := service.cadence.ticker.tick service.world.nanos
  { service with cadence := { service.cadence with ticker } }.beginFetch

/-- Everything that the poll loop can do now.  Where there is a choice, which of them it does
first is not determined by the service itself. -/
def pollMoves (service : Service) : List Service :=
  match service.phase with
  | .ended => []
  | .fetching done answer =>
    if done ≤ service.world.now then [service.finishFetch answer] else []
  | .closing done response =>
    if done ≤ service.world.now then [service.finishClose response] else []
  | .waiting =>
    (if service.startPending then [service.takeStart] else []) ++
      (if service.stopPending then [service.takeStop] else []) ++
      (if service.world.cancelled then [service.endPolling] else []) ++
      (if service.armed && service.cadence.ticker.isDue service.world.now then
        [service.takeTick]
      else [])

/-- What the poll loop does now, if there is anything: commands come before ticks. -/
def pollStep? (service : Service) : Option Service := service.pollMoves.head?

/-- What the poll loop does is one of the things that it can do. -/
theorem mem_pollMoves_of_pollStep? {service next : Service}
    (h : service.pollStep? = some next) : next ∈ service.pollMoves :=
  List.mem_of_head? h

/-- When the poll loop has something to do next, in milliseconds. -/
def pollWake (service : Service) : Option Nat :=
  match service.phase with
  | .ended => none
  | .fetching done _ | .closing done _ => some done
  | .waiting => if service.armed then some service.cadence.ticker.dueAt else none

/-- How many ticks the poll loop can have to take now, at most. -/
def backlog (service : Service) : Nat :=
  service.world.nanos + 1 - service.cadence.ticker.deadline

/-- Lets the poll loop do what is due now, at most `fuel` things of it. -/
def settlePoll : (fuel : Nat) → Service → Service
  | 0, service => service
  | fuel + 1, service =>
    match service.pollStep? with
    | some service => settlePoll fuel service
    | none => service

/-- The service after something that the reaper did. -/
def withReaper (service : Service) (next : Reaper × World) : Service :=
  { service with reaper := next.1, world := next.2 }

/-- Lets the reaper do what is due now. -/
def settleReaper (service : Service) : Service :=
  service.withReaper (service.reaper.settle service.world)

/-- Lets both loops do what is due now.  A cycle has three parts, and each tick moves the deadline
on. -/
def settle (service : Service) : Service :=
  (settlePoll (3 * service.backlog + 8) service).settleReaper

/-! ## Time -/

/-- The earlier of two instants at which something is due. -/
def earlier : Option Nat → Option Nat → Option Nat
  | some a, some b => some (min a b)
  | a, none => a
  | none, b => b

/-- A service through time. -/
def process : Process Service where
  now service := service.world.now
  moveTo instant service := { service with world := { service.world with now := instant } }
  wake service := earlier service.pollWake service.reaper.wake
  settle := settle

/-- Lets some time pass. -/
def advance (millis : Nat) (service : Service) : Service := process.advance millis service

/-- How long the poll loop is busy with a part of a cycle, in milliseconds. -/
def busyFor (service : Service) : Option Nat :=
  match service.phase with
  | .fetching done _ | .closing done _ => some (done - service.world.now)
  | .waiting | .ended => none

/-- Waits while something is the case that only a busy poll loop can bring about.  A cycle has
two parts that take time, so `fuel` need not exceed two. -/
def awaitPoll (unfinished : Service → Bool) : (fuel : Nat) → Service → Service
  | 0, service => service
  | fuel + 1, service =>
    if unfinished service then
      match service.busyFor with
      | some millis => awaitPoll unfinished fuel (service.advance millis)
      | none => service
    else service

/-! ## Commands -/

/-- Whether the poll loop has ended and takes no more commands. -/
def pollEnded (service : Service) : Bool :=
  match service.phase with
  | .ended => true
  | _ => false

/-- Tells the poll loop to take ticks.  While an earlier command to start has not been taken, the
caller waits. -/
def start (service : Service) : Service :=
  let service := service.awaitPoll (·.startPending) 2
  if service.pollEnded then { service with world := service.world.note .startIgnored }
  else { service with startPending := true }.settle

/-- Tells the poll loop to take no more ticks.  While an earlier command to stop has not been
taken, the caller waits. -/
def stop (service : Service) : Service :=
  let service := service.awaitPoll (·.stopPending) 2
  if service.pollEnded then { service with world := service.world.note .stopIgnored }
  else { service with stopPending := true }.settle

/-- Reports that the tunnel is in use. -/
def reportActivity (service : Service) : Service :=
  { service with world := service.world.reportActivity }.settle

/-- Tells both loops to end. -/
def cancel (service : Service) : Service :=
  { service with world := { service.world with cancelled := true } }.settle

/-- Waits until both loops have ended, which they do after what they are busy with. -/
def awaitEnd : (fuel : Nat) → Service → Service
  | 0, service => service
  | fuel + 1, service =>
    match process.wake service with
    | some instant => awaitEnd fuel (service.advance (instant - service.world.now))
    | none => service

/-- Tells both loops to end, and waits for it: the poll loop can be busy with two things, the
reaper with one. -/
def shutdown (service : Service) : Service := service.cancel.awaitEnd 4

/-- Changes something from outside. -/
def change (update : Service → Service) (service : Service) : Service := (update service).settle

/-! ## Starting a service -/

/-- What a service is given beside its configuration. -/
structure Setup where
  /-- Whether the service is given the transport, to manage tunnels. -/
  hasTunnel : Bool := false
  transport : Transport := {}
  decrypt : Decryptor := leadingKeyDecryptor
  collaborators : Collaborators := {}
  source : Source := {}
  /-- The time that a request may take at first, if it is not the interval of the
  configuration. -/
  timeout : Option Duration := none
  /-- The end of the clock, in nanoseconds. -/
  clockEnd : Nat

/-- Starts a service with a source of answers.  Of the configuration only the interval is
checked.  Polling stays disarmed until it is started, and nothing has told the loops to end. -/
def spawnWithSource (config : Config) (setup : Setup) (world : World) :
    Except AgentError Service := do
  let cadence ← (Cadence.start setup.clockEnd world.nanos config.pollFrequency.toBinary64
    (setup.timeout.getD config.pollFrequency)).mapError AgentError.poll
  let world := { world with
    hasTunnel := setup.hasTunnel, control := ⟨setup.transport, {}⟩, cancelled := false }
  let (reaper, world) := Reaper.start ⟨Reaper.checkInterval, config.inactivityTimeout,
    .notStarted, none⟩ world
  return settle
    { world
      clockEnd := setup.clockEnd
      identity := config.tunnelIdentity
      decrypt := setup.decrypt
      collaborators := setup.collaborators
      source := setup.source
      cadence
      reaper }

/-- Starts a service that polls over the network, from a configuration that has to be valid. -/
def spawn (config : Config) (setup : Setup) : Except AgentError Service := do
  config.validate.mapError AgentError.config
  let world : World := {}
  spawnWithSource config setup
    (world.note (.pollingPrepared config.pollFrequency config.baseUrl))

end Service

end CheckIn
