/-
# What the loops do, in closed form

A cycle is told by functions that call one another: an answer arrives, the tunnel reacts, the
rest of the answer is dispatched, and the cycle ends.  This file says of each of them what it
leaves behind, in one equation.  A part of a cycle can change the cadence, the transport with the
way of activity reports, the journal and the phase of the poll loop, and nothing else
(`Service.during`); a check of the reaper changes its phase and the journal.  The later files
speak of the loops through these equations.
-/
import CheckIn.Service
import Mathlib.Tactic.Common

namespace CheckIn

/-- A step whose failures are only reported does not end a cycle. -/
lemma CycleStep.handle_fst_of_logAndContinue {ε α : Type} (step : CycleStep) (text : ε → String)
    (result : Except ε α) (h : step.policy = .logAndContinue) :
    ∃ done, (step.handle text result).1 = .ok done := by
  cases result with
  | ok value => exact ⟨some value, rfl⟩
  | error error => exact ⟨none, by simp only [handle, h]⟩

namespace Dispatch

variable {κ : Type} (collaborators : Collaborators) (control : CadenceControl κ)

/-- A scheduler that fails does not end a cycle. -/
lemma applySchedules_fst (response : Response) :
    ∃ done, (applySchedules collaborators response).1 = .ok done :=
  CycleStep.handle_fst_of_logAndContinue .schedule DispatchError.message
    (collaborators.scheduler.mapError DispatchError.schedule) rfl

/-- An interval that is ignored or refused does not end a cycle. -/
lemma adoptInterval_fst (checkin : Binary64) (state : κ) :
    (adoptInterval control checkin state).1 = .ok () := by
  by_cases hs : checkin.sameNumber (control.interval state) = true
  · simp [adoptInterval, hs]
  by_cases hv : validInterval checkin = true
  · obtain ⟨done, hdone⟩ := CycleStep.handle_fst_of_logAndContinue .cadence DispatchError.message
      ((control.adopt checkin state).1.mapError (DispatchError.cadence checkin)) rfl
    simp [adoptInterval, hs, hv, hdone, Except.map]
  · simp [adoptInterval, hs, hv]

/-- All four subsystems are served; only the last one decides how the dispatch ends. -/
lemma dispatch_eq (response : Response) (state : κ) :
    dispatch collaborators control response state =
      ((reconcileStacks collaborators response).1,
        (adoptInterval control response.checkin state).2.1,
        (applySchedules collaborators response).2 ++ .collect response.logRequests ::
          ((adoptInterval control response.checkin state).2.2 ++
            (reconcileStacks collaborators response).2)) := by
  obtain ⟨done, hdone⟩ := applySchedules_fst collaborators response
  have hadopt := adoptInterval_fst control response.checkin state
  rcases happly : applySchedules collaborators response with ⟨_, applied⟩
  rcases hinterval : adoptInterval control response.checkin state with ⟨_, next, adopted⟩
  rw [happly] at hdone
  rw [hinterval] at hadopt
  simp only at hdone hadopt
  subst hdone hadopt
  simp only [dispatch, happly, hinterval]

end Dispatch

namespace TunnelControl

/-- What a transport is told by an agent with some identity. -/
def parameters (identity : TunnelIdentity) (credentials : String) (port : Nat) :
    TunnelParameters where
  serverAddr := identity.serverAddr
  serverFingerprint := identity.serverFingerprint
  credentials := credentials
  remotePort := decimalNat port
  localAddr := identity.localAddr

/-- The transport and the way of reports after a tunnel has been opened. -/
def afterOpening (control : TunnelControl) (parameters : TunnelParameters) : TunnelControl where
  transport := { control.transport with
    isOpen := true, openings := parameters :: control.transport.openings }
  activity := (control.activity.report true).1

variable (decrypt : Decryptor) (identity : TunnelIdentity) (sent : String) (port : Int64)
  (control : TunnelControl)

/-- Opening goes through four stages: the credentials, the port, the transport, and success. -/
lemma openFor_eq :
    control.openFor decrypt identity sent port =
      match decodeCredentials decrypt identity.edgeId sent with
      | .error error => (.error error, control, [.log .tunnelRequested])
      | .ok credentials =>
        match remotePort port with
        | .error error => (.error error, control, [.log .tunnelRequested])
        | .ok port =>
          if control.transport.refusesOpen then
            (.error (.refusedOpen control.transport.openFault), control,
              [.log .tunnelRequested, .openTunnel (parameters identity credentials port),
                .log (.tunnelRefused control.transport.openFault)])
          else
            (.ok .opened, control.afterOpening (parameters identity credentials port),
              .log .tunnelRequested :: .openTunnel (parameters identity credentials port) ::
                .log (.tunnelEstablished port) ::
                  (control.activity.report true).2.map .log) := by
  unfold openFor
  rcases decodeCredentials decrypt identity.edgeId sent with error | credentials
  · rfl
  · simp only [CycleStep.handle, openWith]
    rcases remotePort port with error | number
    · rfl
    · cases hr : control.transport.refusesOpen
      · simp [Transport.tryOpen, hr, afterOpening, parameters, Except.map]
      · simp [Transport.tryOpen, hr, CycleStep.policy, parameters, Except.map]

/-- The transport after closing has come to its end, whether it succeeded or not. -/
def afterClosing (control : TunnelControl) : TunnelControl where
  transport := { control.transport with
    isOpen := control.transport.isOpen && control.transport.refusesClose
    closeCalls := control.transport.closeCalls + 1 }
  activity := control.activity

/-- What is reported when closing fails. -/
def closingRecords (control : TunnelControl) : List Event :=
  if control.transport.refusesClose then
    [.log (.stepFailed .tunnelClose (TunnelError.refusedClose control.transport.closeFault).message)]
  else []

/-- A transport that fails to close does not end a cycle. -/
lemma finishClose_eq :
    ∃ done, control.finishClose = (.ok done, control.afterClosing, control.closingRecords) := by
  cases hr : control.transport.refusesClose
  · exact ⟨some (), by
      simp [finishClose, Transport.tryClose, hr, CycleStep.handle, afterClosing, closingRecords,
        Except.mapError]⟩
  · exact ⟨none, by
      simp [finishClose, Transport.tryClose, hr, CycleStep.handle, CycleStep.policy, afterClosing,
        closingRecords, Except.mapError]⟩

end TunnelControl

namespace Service

/-- What a part of a cycle leaves behind. -/
structure Outcome where
  cadence : Cadence
  control : TunnelControl
  /-- The events of this part, in order. -/
  events : List Event
  phase : PollPhase

/-- A service after a part of a cycle. -/
def during (service : Service) (outcome : Outcome) : Service :=
  { service with
    cadence := outcome.cadence
    phase := outcome.phase
    world := { service.world with control := outcome.control }.emit outcome.events }

/-- What is reported at the end of a cycle. -/
def cycleRecords : Except AgentError Unit → List Event
  | .ok () => []
  | .error error => [.log (.cycleFailed error)]

/-- What the dispatch of an answer does about the interval. -/
def adoption (service : Service) (response : Response) :
    Except DispatchError Unit × Cadence × List Event :=
  Dispatch.adoptInterval
    (Cadence.control service.clockEnd service.world.nanos service.timeoutRefusal)
    response.checkin service.cadence

/-- The events with which an answer is dispatched and its cycle ends. -/
def dispatchEvents (service : Service) (response : Response) : List Event :=
  (Dispatch.applySchedules service.collaborators response).2 ++ .collect response.logRequests ::
    ((service.adoption response).2.2 ++
      (Dispatch.reconcileStacks service.collaborators response).2) ++
    cycleRecords ((Dispatch.reconcileStacks service.collaborators response).1.mapError .dispatch)

/-- Whether an answer first has the tunnel closed. -/
def closesFor (service : Service) (response : Response) : Bool :=
  service.world.hasTunnel && service.world.control.mustClose response.status

/-- The reaction to an answer that does not have the tunnel closed. -/
def reaction (service : Service) (response : Response) :
    Except TunnelError TunnelAction × TunnelControl × List Event :=
  if service.world.hasTunnel && service.world.control.mustOpen response.status then
    service.world.control.openFor service.decrypt service.identity response.credentials
      response.port
  else (.ok .none, service.world.control, [])

/-- The tunnel is closed first, or the reaction fails, or the answer is dispatched at once. -/
def reactOutcome (service : Service) (response : Response) : Outcome :=
  if service.closesFor response then
    ⟨service.cadence, service.world.control, TunnelControl.beginClose response.status,
      .closing (service.world.now + service.world.closeDelay) response⟩
  else
    match service.reaction response with
    | (.ok _, control, events) =>
      ⟨(service.adoption response).2.1, control, events ++ service.dispatchEvents response,
        .waiting⟩
    | (.error error, control, events) =>
      ⟨service.cadence, control, events ++ [.log (.cycleFailed (.tunnel error))], .waiting⟩

/-- A failure ends the cycle; any other answer is reported first. -/
def answerOutcome (service : Service) : Except PollError Response → Outcome
  | .error error =>
    ⟨service.cadence, service.world.control, [.log (.cycleFailed (.poll error))], .waiting⟩
  | .ok response =>
    { service.reactOutcome response with
      events := .log (.answerReceived response) :: (service.reactOutcome response).events }

/-- Whether closing succeeded or not, the answer is dispatched afterwards. -/
def closeOutcome (service : Service) (response : Response) : Outcome :=
  ⟨(service.adoption response).2.1, service.world.control.afterClosing,
    service.world.control.closingRecords ++ service.dispatchEvents response, .waiting⟩

variable (service : Service)

/-! Two parts of a cycle one after the other. -/

lemma during_during (first second : Outcome) :
    (service.during first).during second =
      service.during { second with events := first.events ++ second.events } := by
  simp [during, World.emit]

lemma endCycle_eq (result : Except AgentError Unit) :
    service.endCycle result =
      service.during ⟨service.cadence, service.world.control, cycleRecords result, .waiting⟩ := by
  rcases result with error | _ <;> rfl

lemma dispatch_eq (response : Response) :
    service.dispatch response =
      service.during ⟨(service.adoption response).2.1, service.world.control,
        service.dispatchEvents response, .waiting⟩ := by
  simp only [dispatch, Dispatch.dispatch_eq, endCycle_eq]
  exact during_during service ⟨_, _, _, service.phase⟩ _

/-- The dispatch after an earlier part that left the cadence alone. -/
lemma dispatch_during (control : TunnelControl) (events : List Event) (phase : PollPhase)
    (response : Response) :
    (service.during ⟨service.cadence, control, events, phase⟩).dispatch response =
      service.during ⟨(service.adoption response).2.1, control,
        events ++ service.dispatchEvents response, .waiting⟩ := by
  rw [dispatch_eq, during_during]
  rfl

lemma finishClose_eq (response : Response) :
    service.finishClose response = service.during (service.closeOutcome response) := by
  obtain ⟨done, hdone⟩ := TunnelControl.finishClose_eq service.world.control
  simp only [finishClose, hdone]
  exact dispatch_during service _ _ service.phase response

lemma react_eq (response : Response) :
    service.react response = service.during (service.reactOutcome response) := by
  by_cases ht : service.world.hasTunnel = true
  · by_cases hc : service.world.control.mustClose response.status = true
    · simp [react, reactOutcome, closesFor, ht, hc, during, World.emit]
    have hcloses : ¬ service.closesFor response = true := by simp [closesFor, hc]
    by_cases ho : service.world.control.mustOpen response.status = true
    · simp only [react, reactOutcome]
      rw [if_neg (by simp [ht]), if_neg hc, if_pos ho, if_neg hcloses, reaction,
        if_pos (by simp [ht, ho])]
      rcases service.world.control.openFor service.decrypt service.identity
        response.credentials response.port with ⟨error | action, control, events⟩
      · exact (endCycle_eq _ _).trans (during_during service ⟨_, _, _, service.phase⟩ _)
      · exact dispatch_during service control events service.phase response
    · simp [react, reactOutcome, hcloses, reaction, ht, hc, ho, dispatch_eq]
  · simp [react, reactOutcome, closesFor, reaction, ht, dispatch_eq]

lemma finishFetch_eq (answer : Except PollError Response) :
    service.finishFetch answer = service.during (service.answerOutcome answer) := by
  rcases answer with code | response
  · rfl
  · have hreceived : service.finishFetch (.ok response) =
        (service.during ⟨service.cadence, service.world.control,
          [.log (.answerReceived response)], service.phase⟩).react response := rfl
    rw [hreceived, react_eq, during_during]
    rfl

end Service

namespace Reaper

variable (reaper : Reaper) (world : World)

/-- Whether a check has the tunnel closed. -/
def closesNow : Bool :=
  world.hasTunnel && world.control.transport.isOpen &&
    idleExpired reaper.lastActivity world.nanos reaper.timeout.nanos

/-- The events of a check. -/
def checkEvents : List Event :=
  match reaper.lastActivity with
  | none => []
  | some last =>
    if world.hasTunnel then
      .log (.tunnelUnused (world.nanos - last)) ::
        if reaper.closesNow world then [.log (.tunnelExpired (world.nanos - last)), .closeTunnel]
        else []
    else []

/-- The phase after a check. -/
def phaseAfter (ticker : Ticker) : ReaperPhase :=
  if reaper.closesNow world then .closing ticker (world.now + world.closeDelay)
  else .watching ticker

lemma check_eq (ticker : Ticker) :
    reaper.check ticker world =
      ({ reaper with phase := reaper.phaseAfter world ticker },
        world.emit (reaper.checkEvents world)) := by
  cases hl : reaper.lastActivity with
  | none => simp [check, hl, phaseAfter, closesNow, checkEvents, idleExpired]
  | some last =>
    by_cases ht : world.hasTunnel = true
    · by_cases hc : reaper.closesNow world = true
      · have hopen : (world.control.transport.isOpen &&
            idleExpired (some last) world.nanos reaper.timeout.nanos) = true := by
          simpa [closesNow, hl, ht] using hc
        simp [check, hl, ht, hc, hopen, phaseAfter, checkEvents, World.note_eq_emit,
          World.emit_emit]
      · have hopen : ¬ (world.control.transport.isOpen &&
            idleExpired (some last) world.nanos reaper.timeout.nanos) = true := by
          simpa [closesNow, hl, ht] using hc
        simp [check, hl, ht, hc, hopen, phaseAfter, checkEvents, World.note_eq_emit]
    · simp [check, hl, ht, phaseAfter, closesNow, checkEvents]

/-- The end of closing, whether it succeeded or not. -/
lemma finishClose_eq (ticker : Ticker) :
    reaper.finishClose ticker world =
      ({ reaper with phase := .watching ticker },
        { world with control := world.control.afterClosing }.emit
          world.control.closingRecords) := by
  obtain ⟨done, hdone⟩ := TunnelControl.finishClose_eq world.control
  simp only [finishClose, hdone]

end Reaper

end CheckIn
