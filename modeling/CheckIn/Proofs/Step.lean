/-
# The steps of a service

What happens to a service is what its two loops do, what it is told, what changes in the things
it works with, and the passing of time.  `Act` names all of this, and `Step` says when an act can
happen and what it does.  The acts of the loops are exactly the members of `pollMoves` and
`Reaper.moves` (`mem_pollMoves_iff`, `mem_moves_iff`), in any order in which they can be done.

An act leaves behind exactly one service, `Service.after`, which is given part by part; the later
files speak of a step through these parts.  Whether an act can happen is decided by
`Service.can`, so that concrete runs can be computed.
-/
import CheckIn.Proofs.ClosedForm
import Mathlib.Tactic.Common

namespace CheckIn

/-- What can change in the things that a running service works with. -/
inductive Outside
  /-- The answers to come. -/
  | source (source : Source)
  | collaborators (collaborators : Collaborators)
  /-- Whether the source refuses another timeout. -/
  | timeoutRefusal (refusal : Option PollError)
  /-- Whether the transport fails to open and to close. -/
  | failures (refusesOpen refusesClose : Bool)
  /-- How many milliseconds closing takes. -/
  | closeDelay (millis : Nat)
  /-- The tunnel itself, without a call of the service. -/
  | tunnel (isOpen : Bool)

/-- A service with something changed from outside. -/
def Outside.apply (service : Service) : Outside → Service
  | .source answers => { service with source := answers }
  | .collaborators failing => { service with collaborators := failing }
  | .timeoutRefusal refusal => { service with timeoutRefusal := refusal }
  | .failures refusesOpen refusesClose =>
    { service with world := service.world.changeTransport ({ · with refusesOpen, refusesClose }) }
  | .closeDelay millis => { service with world := { service.world with closeDelay := millis } }
  | .tunnel isOpen => { service with world := service.world.changeTransport ({ · with isOpen }) }

/-- Whether the reaper waits for a check or a report. -/
def Reaper.isWatching (reaper : Reaper) : Bool :=
  match reaper.phase with
  | .watching _ => true
  | _ => false

lemma Reaper.isWatching_iff {reaper : Reaper} :
    reaper.isWatching = true ↔ ∃ ticker, reaper.phase = .watching ticker := by
  cases h : reaper.phase <;> simp [isWatching, h]

namespace Service

/-- What can happen to a service. -/
inductive Act
  /-- A command to start is sent. -/
  | start
  /-- A command to stop is sent. -/
  | stop
  /-- Activity of the tunnel is reported. -/
  | reportActivity
  /-- Both loops are told to end. -/
  | cancel
  | takeStart
  | takeStop
  | endPolling
  /-- The poll loop takes a tick and begins to fetch. -/
  | tick
  /-- The answer arrives. -/
  | answered
  /-- Closing comes to its end in a cycle. -/
  | closed
  /-- The reaper takes a report of activity. -/
  | takeReport
  /-- The reaper looks at the tunnel. -/
  | check
  /-- Closing comes to its end in the reaper. -/
  | reaperClosed
  /-- The reaper ends. -/
  | leave
  /-- Time passes until an instant in milliseconds. -/
  | wait (instant : Nat)
  | outside (change : Outside)

namespace Act

/-- The acts of the poll loop. -/
def isPolling : Act → Bool
  | takeStart | takeStop | endPolling | tick | answered | closed => true
  | _ => false

/-- The acts of the reaper. -/
def isReaping : Act → Bool
  | takeReport | check | reaperClosed | leave => true
  | _ => false

end Act

/-- Whether the poll loop waits for a tick or a command. -/
def isWaiting (s : Service) : Bool :=
  match s.phase with
  | .waiting => true
  | _ => false

lemma isWaiting_iff {s : Service} : s.isWaiting = true ↔ s.phase = .waiting := by
  cases h : s.phase <;> simp [isWaiting, h]

/-! ## Steps -/

/-- Sends a command to start; the poll loop does not hear it any more once it has ended. -/
def sendStart (service : Service) : Service :=
  if service.pollEnded then { service with world := service.world.note .startIgnored }
  else { service with startPending := true }

/-- Sends a command to stop; the poll loop does not hear it any more once it has ended. -/
def sendStop (service : Service) : Service :=
  if service.pollEnded then { service with world := service.world.note .stopIgnored }
  else { service with stopPending := true }

/-- The service after an act.  The caller of `start` or `stop` waits until the last command of
this kind has been taken. -/
inductive Step : Service → Act → Service → Prop
  | start {s : Service} (h : s.startPending = true → s.pollEnded = true) :
      Step s .start s.sendStart
  | stop {s : Service} (h : s.stopPending = true → s.pollEnded = true) :
      Step s .stop s.sendStop
  | reportActivity {s : Service} :
      Step s .reportActivity { s with world := s.world.reportActivity }
  | cancel {s : Service} : Step s .cancel { s with world := { s.world with cancelled := true } }
  | takeStart {s : Service} (hw : s.phase = .waiting) (hp : s.startPending = true) :
      Step s .takeStart s.takeStart
  | takeStop {s : Service} (hw : s.phase = .waiting) (hp : s.stopPending = true) :
      Step s .takeStop s.takeStop
  | endPolling {s : Service} (hw : s.phase = .waiting) (hc : s.world.cancelled = true) :
      Step s .endPolling s.endPolling
  | tick {s : Service} (hw : s.phase = .waiting) (ha : s.armed = true)
      (hd : s.cadence.ticker.isDue s.world.now = true) : Step s .tick s.takeTick
  | answered {s : Service} {done : Nat} {answer : Except PollError Response}
      (hf : s.phase = .fetching done answer) (hd : done ≤ s.world.now) :
      Step s .answered (s.finishFetch answer)
  | closed {s : Service} {done : Nat} {response : Response}
      (hc : s.phase = .closing done response) (hd : done ≤ s.world.now) :
      Step s .closed (s.finishClose response)
  | takeReport {s : Service} {ticker : Ticker} (hw : s.reaper.phase = .watching ticker)
      (hp : s.world.control.activity.pending = true) :
      Step s .takeReport (s.withReaper (s.reaper.takeReport s.world))
  | check {s : Service} {ticker : Ticker} (hw : s.reaper.phase = .watching ticker)
      (hd : ticker.isDue s.world.now = true) :
      Step s .check (s.withReaper (s.reaper.check (ticker.tick s.world.nanos) s.world))
  | reaperClosed {s : Service} {ticker : Ticker} {done : Nat}
      (hc : s.reaper.phase = .closing ticker done) (hd : done ≤ s.world.now) :
      Step s .reaperClosed (s.withReaper (s.reaper.finishClose ticker s.world))
  | leave {s : Service} {ticker : Ticker} (hw : s.reaper.phase = .watching ticker)
      (hc : s.world.cancelled = true) :
      Step s .leave (s.withReaper (s.reaper.leave (s.world.note .watchEnded)))
  | wait {s : Service} {instant : Nat} (h : s.world.now < instant) :
      Step s (.wait instant) (process.moveTo instant s)
  | outside {s : Service} (change : Outside) : Step s (.outside change) (change.apply s)

/-- The poll loop's acts are what it can do. -/
theorem mem_pollMoves_iff {s s' : Service} :
    s' ∈ s.pollMoves ↔ ∃ act, act.isPolling = true ∧ Step s act s' := by
  constructor
  · intro h
    cases hp : s.phase with
    | ended => simp [pollMoves, hp] at h
    | fetching done answer =>
      simp only [pollMoves, hp, List.mem_ite_nil_right, List.mem_singleton] at h
      obtain ⟨hd, rfl⟩ := h
      exact ⟨.answered, rfl, .answered hp hd⟩
    | closing done response =>
      simp only [pollMoves, hp, List.mem_ite_nil_right, List.mem_singleton] at h
      obtain ⟨hd, rfl⟩ := h
      exact ⟨.closed, rfl, .closed hp hd⟩
    | waiting =>
      simp only [pollMoves, hp, List.mem_append, List.mem_ite_nil_right, List.mem_singleton,
        Bool.and_eq_true] at h
      rcases h with ((⟨hs, rfl⟩ | ⟨hs, rfl⟩) | ⟨hc, rfl⟩) | ⟨⟨ha, hd⟩, rfl⟩
      · exact ⟨.takeStart, rfl, .takeStart hp hs⟩
      · exact ⟨.takeStop, rfl, .takeStop hp hs⟩
      · exact ⟨.endPolling, rfl, .endPolling hp hc⟩
      · exact ⟨.tick, rfl, .tick hp ha hd⟩
  · rintro ⟨act, hact, h⟩
    cases h <;> simp_all [Act.isPolling, pollMoves]

/-- The reaper's acts are what it can do. -/
theorem mem_moves_iff {s s' : Service} :
    (∃ next ∈ s.reaper.moves s.world, s' = s.withReaper next) ↔
      ∃ act, act.isReaping = true ∧ Step s act s' := by
  constructor
  · rintro ⟨next, h, rfl⟩
    cases hp : s.reaper.phase with
    | notStarted => simp [Reaper.moves, hp] at h
    | ended => simp [Reaper.moves, hp] at h
    | closing ticker done =>
      simp only [Reaper.moves, hp, List.mem_ite_nil_right, List.mem_singleton] at h
      obtain ⟨hd, rfl⟩ := h
      exact ⟨.reaperClosed, rfl, .reaperClosed hp hd⟩
    | watching ticker =>
      simp only [Reaper.moves, hp, List.mem_append, List.mem_ite_nil_right,
        List.mem_singleton] at h
      rcases h with (⟨hc, rfl⟩ | ⟨hr, rfl⟩) | ⟨hd, rfl⟩
      · exact ⟨.leave, rfl, .leave hp hc⟩
      · exact ⟨.takeReport, rfl, .takeReport hp hr⟩
      · exact ⟨.check, rfl, .check hp hd⟩
  · rintro ⟨act, hact, h⟩
    cases h with
    | takeReport hw hp => exact ⟨_, by simp [Reaper.moves, hw, hp], rfl⟩
    | check hw hd => exact ⟨_, by simp [Reaper.moves, hw, hd], rfl⟩
    | reaperClosed hc hd => exact ⟨_, by simp [Reaper.moves, hc, hd], rfl⟩
    | leave hw hc => exact ⟨_, by simp [Reaper.moves, hw, hc], rfl⟩
    | _ => simp [Act.isReaping] at hact

/-! ## What an act leaves behind -/

/-- The events of an act, in order. -/
def eventsOf (s : Service) : Act → List Event
  | .start => if s.pollEnded then [.log .startIgnored] else []
  | .stop => if s.pollEnded then [.log .stopIgnored] else []
  | .reportActivity =>
    if s.world.hasTunnel then
      (s.world.control.activity.report s.world.control.transport.isOpen).2.map .log
    else []
  | .takeStop => [.log .pollingStopped]
  | .endPolling => [.log .pollLoopEnded]
  | .tick => [.fetch s.cadence.timeout]
  | .answered =>
    match s.phase with
    | .fetching _ answer => (s.answerOutcome answer).events
    | _ => []
  | .closed =>
    match s.phase with
    | .closing _ response => (s.closeOutcome response).events
    | _ => []
  | .check => s.reaper.checkEvents s.world
  | .reaperClosed => s.world.control.closingRecords
  | .leave => [.log .watchEnded]
  | _ => []

/-- The transport and the way of reports after an act. -/
def controlAfter (s : Service) : Act → TunnelControl
  | .reportActivity =>
    if s.world.hasTunnel then
      { s.world.control with
        activity := (s.world.control.activity.report s.world.control.transport.isOpen).1 }
    else s.world.control
  | .answered =>
    match s.phase with
    | .fetching _ answer => (s.answerOutcome answer).control
    | _ => s.world.control
  | .closed | .reaperClosed => s.world.control.afterClosing
  | .takeReport => s.world.takeReport.control
  | .leave => s.world.stopWatching.control
  | .outside change => (change.apply s).world.control
  | _ => s.world.control

/-- The reaper after an act. -/
def reaperAfter (s : Service) : Act → Reaper
  | .takeReport => { s.reaper with lastActivity := some s.world.nanos }
  | .check =>
    match s.reaper.phase with
    | .watching ticker =>
      { s.reaper with phase := s.reaper.phaseAfter s.world (ticker.tick s.world.nanos) }
    | _ => s.reaper
  | .reaperClosed =>
    match s.reaper.phase with
    | .closing ticker _ => { s.reaper with phase := .watching ticker }
    | _ => s.reaper
  | .leave => { s.reaper with phase := .ended }
  | _ => s.reaper

/-- The cadence after an act. -/
def cadenceAfter (s : Service) : Act → Cadence
  | .tick => { s.cadence with ticker := s.cadence.ticker.tick s.world.nanos }
  | .answered =>
    match s.phase with
    | .fetching _ answer => (s.answerOutcome answer).cadence
    | _ => s.cadence
  | .closed =>
    match s.phase with
    | .closing _ response => (s.closeOutcome response).cadence
    | _ => s.cadence
  | _ => s.cadence

/-- The phase of the poll loop after an act. -/
def phaseAfter (s : Service) : Act → PollPhase
  | .endPolling => .ended
  | .tick => .fetching (s.world.now + s.source.next.2.1) s.source.next.1
  | .answered =>
    match s.phase with
    | .fetching _ answer => (s.answerOutcome answer).phase
    | _ => s.phase
  | .closed => .waiting
  | _ => s.phase

/-- Whether a command to start waits to be taken after an act. -/
def startPendingAfter (s : Service) : Act → Bool
  | .start => if s.pollEnded then s.startPending else true
  | .takeStart => false
  | _ => s.startPending

/-- Whether a command to stop waits to be taken after an act. -/
def stopPendingAfter (s : Service) : Act → Bool
  | .stop => if s.pollEnded then s.stopPending else true
  | .takeStop => false
  | _ => s.stopPending

/-- The world after an act. -/
def worldAfter (s : Service) (act : Act) : World where
  now := match act with
    | .wait instant => instant
    | _ => s.world.now
  hasTunnel := s.world.hasTunnel
  control := s.controlAfter act
  closeDelay := match act with
    | .outside (.closeDelay millis) => millis
    | _ => s.world.closeDelay
  cancelled := match act with
    | .cancel => true
    | _ => s.world.cancelled
  journal := ((s.eventsOf act).map (s.world.now, ·)).reverse ++ s.world.journal

/-- The service after an act. -/
def after (s : Service) (act : Act) : Service where
  world := s.worldAfter act
  clockEnd := s.clockEnd
  identity := s.identity
  decrypt := s.decrypt
  collaborators := match act with
    | .outside (.collaborators failing) => failing
    | _ => s.collaborators
  source := match act with
    | .tick => s.source.next.2.2
    | .outside (.source answers) => answers
    | _ => s.source
  timeoutRefusal := match act with
    | .outside (.timeoutRefusal refusal) => refusal
    | _ => s.timeoutRefusal
  cadence := s.cadenceAfter act
  armed := match act with
    | .takeStart => true
    | .takeStop => false
    | _ => s.armed
  startPending := s.startPendingAfter act
  stopPending := s.stopPendingAfter act
  phase := s.phaseAfter act
  reaper := s.reaperAfter act

/-- The journal after an act. -/
lemma journal_after (s : Service) (act : Act) :
    (s.after act).world.journal =
      ((s.eventsOf act).map (s.world.now, ·)).reverse ++ s.world.journal := rfl

@[simp] lemma world_after (s : Service) (act : Act) : (s.after act).world = s.worldAfter act := rfl

@[simp] lemma cadence_after (s : Service) (act : Act) :
    (s.after act).cadence = s.cadenceAfter act := rfl

@[simp] lemma phase_after (s : Service) (act : Act) : (s.after act).phase = s.phaseAfter act := rfl

@[simp] lemma reaper_after (s : Service) (act : Act) :
    (s.after act).reaper = s.reaperAfter act := rfl

@[simp] lemma control_worldAfter (s : Service) (act : Act) :
    (s.worldAfter act).control = s.controlAfter act := rfl

@[simp] lemma hasTunnel_worldAfter (s : Service) (act : Act) :
    (s.worldAfter act).hasTunnel = s.world.hasTunnel := rfl

/-- An act leaves behind exactly one service. -/
theorem Step.eq_after {s s' : Service} {act : Act} (h : Step s act s') : s' = s.after act := by
  cases h with
  | start _ =>
    by_cases he : s.pollEnded = true <;>
      simp [sendStart, he, after, worldAfter, controlAfter, eventsOf, cadenceAfter, phaseAfter,
        reaperAfter, startPendingAfter, stopPendingAfter, World.note_eq_emit, World.emit]
  | stop _ =>
    by_cases he : s.pollEnded = true <;>
      simp [sendStop, he, after, worldAfter, controlAfter, eventsOf, cadenceAfter, phaseAfter,
        reaperAfter, startPendingAfter, stopPendingAfter, World.note_eq_emit, World.emit]
  | reportActivity =>
    unfold World.reportActivity after worldAfter controlAfter eventsOf
    split <;> rfl
  | cancel => rfl
  | takeStart _ _ => rfl
  | takeStop _ _ => rfl
  | endPolling _ _ => rfl
  | tick _ _ _ =>
    -- the next deadline is a sum that must stay folded
    have hticker : ∀ ticker, beginFetch { s with cadence := { s.cadence with ticker } } =
        { s.after .tick with cadence := { s.cadence with ticker } } := fun _ => rfl
    exact hticker _
  | answered hf _ =>
    rw [finishFetch_eq]
    simp [during, after, worldAfter, controlAfter, eventsOf, cadenceAfter, phaseAfter,
      reaperAfter, startPendingAfter, stopPendingAfter, World.emit, hf]
  | closed hc _ =>
    rw [finishClose_eq]
    simp [during, after, worldAfter, controlAfter, eventsOf, cadenceAfter, phaseAfter,
      reaperAfter, startPendingAfter, stopPendingAfter, World.emit, hc, closeOutcome]
  | takeReport _ _ => rfl
  | check hw _ =>
    rw [Reaper.check_eq]
    simp [withReaper, after, worldAfter, controlAfter, eventsOf, cadenceAfter, phaseAfter,
      reaperAfter, startPendingAfter, stopPendingAfter, World.emit, hw]
  | reaperClosed hc _ =>
    rw [Reaper.finishClose_eq]
    simp [withReaper, after, worldAfter, controlAfter, eventsOf, cadenceAfter, phaseAfter,
      reaperAfter, startPendingAfter, stopPendingAfter, World.emit, hc]
  | leave _ _ => rfl
  | wait _ => rfl
  | outside change => cases change <;> rfl

/-! ## Whether an act can happen -/

/-- Whether an act can happen. -/
def can (s : Service) : Act → Bool
  | .start => !s.startPending || s.pollEnded
  | .stop => !s.stopPending || s.pollEnded
  | .reportActivity | .cancel | .outside _ => true
  | .takeStart => s.isWaiting && s.startPending
  | .takeStop => s.isWaiting && s.stopPending
  | .endPolling => s.isWaiting && s.world.cancelled
  | .tick => s.isWaiting && s.armed && s.cadence.ticker.isDue s.world.now
  | .answered =>
    match s.phase with
    | .fetching done _ => decide (done ≤ s.world.now)
    | _ => false
  | .closed =>
    match s.phase with
    | .closing done _ => decide (done ≤ s.world.now)
    | _ => false
  | .takeReport => s.reaper.isWatching && s.world.control.activity.pending
  | .check =>
    match s.reaper.phase with
    | .watching ticker => ticker.isDue s.world.now
    | _ => false
  | .reaperClosed =>
    match s.reaper.phase with
    | .closing _ done => decide (done ≤ s.world.now)
    | _ => false
  | .leave => s.reaper.isWatching && s.world.cancelled
  | .wait instant => decide (s.world.now < instant)

/-- A step can happen. -/
lemma Step.can {s s' : Service} {act : Act} (h : Step s act s') : s.can act = true := by
  cases h with
  | start h | stop h => cases hp : s.pollEnded <;> simp_all [Service.can]
  | _ => simp_all [Service.can, isWaiting, Reaper.isWatching]

/-- An act that can happen is a step. -/
lemma exists_step_of_can {s : Service} {act : Act} (h : s.can act = true) :
    ∃ s', Step s act s' := by
  cases act with
  | start =>
    simp only [Service.can, Bool.or_eq_true, Bool.not_eq_true'] at h
    exact ⟨_, .start fun hp => h.resolve_left (by simp [hp])⟩
  | stop =>
    simp only [Service.can, Bool.or_eq_true, Bool.not_eq_true'] at h
    exact ⟨_, .stop fun hp => h.resolve_left (by simp [hp])⟩
  | reportActivity => exact ⟨_, .reportActivity⟩
  | cancel => exact ⟨_, .cancel⟩
  | outside change => exact ⟨_, .outside change⟩
  | takeStart =>
    simp only [Service.can, Bool.and_eq_true, isWaiting_iff] at h
    exact ⟨_, .takeStart h.1 h.2⟩
  | takeStop =>
    simp only [Service.can, Bool.and_eq_true, isWaiting_iff] at h
    exact ⟨_, .takeStop h.1 h.2⟩
  | endPolling =>
    simp only [Service.can, Bool.and_eq_true, isWaiting_iff] at h
    exact ⟨_, .endPolling h.1 h.2⟩
  | tick =>
    simp only [Service.can, Bool.and_eq_true, isWaiting_iff] at h
    exact ⟨_, .tick h.1.1 h.1.2 h.2⟩
  | answered =>
    cases hp : s.phase <;> simp only [Service.can, hp, decide_eq_true_eq, reduceCtorEq] at h
    exact ⟨_, .answered hp h⟩
  | closed =>
    cases hp : s.phase <;> simp only [Service.can, hp, decide_eq_true_eq, reduceCtorEq] at h
    exact ⟨_, .closed hp h⟩
  | takeReport =>
    simp only [Service.can, Bool.and_eq_true, Reaper.isWatching_iff] at h
    obtain ⟨⟨ticker, hw⟩, hp⟩ := h
    exact ⟨_, .takeReport hw hp⟩
  | check =>
    cases hw : s.reaper.phase <;> simp only [Service.can, hw, reduceCtorEq] at h
    exact ⟨_, .check hw h⟩
  | reaperClosed =>
    cases hc : s.reaper.phase <;>
      simp only [Service.can, hc, decide_eq_true_eq, reduceCtorEq] at h
    exact ⟨_, .reaperClosed hc h⟩
  | leave =>
    simp only [Service.can, Bool.and_eq_true, Reaper.isWatching_iff] at h
    obtain ⟨⟨ticker, hw⟩, hc⟩ := h
    exact ⟨_, .leave hw hc⟩
  | wait instant =>
    simp only [Service.can, decide_eq_true_eq] at h
    exact ⟨_, .wait h⟩

/-- A step is an act that can happen, with what it leaves behind. -/
theorem step_iff {s s' : Service} {act : Act} :
    Step s act s' ↔ s.can act = true ∧ s' = s.after act := by
  constructor
  · intro h
    exact ⟨h.can, h.eq_after⟩
  · rintro ⟨h, rfl⟩
    obtain ⟨s', hs⟩ := exists_step_of_can h
    exact hs.eq_after ▸ hs

end Service

end CheckIn
