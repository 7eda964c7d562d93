/-
# The calls of an act

The events of an act are records and calls of the collaborators.  Most statements are about the
calls of one kind, so this file says once what an `Observer`, who picks some calls and looks at
no records, sees of each act (`Service.seen_eventsOf`).  The later files apply this to the calls
of the transport and of the source.

What a dispatch asks of the source is settled here as well: another timeout is wanted if the
interval of the answer is another number, can be polled at, and leaves time before the end of the
clock (`Service.wantedTimeout`), and then the whole cadence changes or nothing of it
(`Service.adoption_cadence`).
-/
import CheckIn.Proofs.Step

namespace CheckIn

/-- Somebody who picks some events and looks at no records. -/
structure Observer (α : Type) where
  see : Event → Option α
  see_log : ∀ record, see (.log record) = none

namespace Observer

variable {α : Type} (observer : Observer α)

/-- What is seen of some events, in order. -/
def seen (events : List Event) : List α := events.filterMap observer.see

@[simp] lemma seen_nil : observer.seen [] = [] := rfl

@[simp] lemma seen_append (events more : List Event) :
    observer.seen (events ++ more) = observer.seen events ++ observer.seen more :=
  List.filterMap_append

@[simp] lemma seen_cons (event : Event) (events : List Event) :
    observer.seen (event :: events) = (observer.see event).toList ++ observer.seen events := by
  cases h : observer.see event <;> simp [seen, h]

@[simp] lemma seen_map_log (records : List LogRecord) : observer.seen (records.map .log) = [] := by
  induction records with
  | nil => rfl
  | cons record records ih => simp [observer.see_log, ih]

lemma mem_seen {a : α} {events : List Event} :
    a ∈ observer.seen events ↔ ∃ event ∈ events, observer.see event = some a :=
  List.mem_filterMap

/-- What is seen of only one event is seen where this event is. -/
lemma mem_seen_iff_mem {a : α} {event : Event} {events : List Event}
    (h : ∀ other, observer.see other = some a ↔ other = event) :
    a ∈ observer.seen events ↔ event ∈ events := by
  rw [mem_seen]
  constructor
  · rintro ⟨other, hmem, hsee⟩
    exact (h other).mp hsee ▸ hmem
  · intro hmem
    exact ⟨event, hmem, (h event).mpr rfl⟩

end Observer

/-! ## Intervals that can be polled at -/

/-- The duration of an interval that can be polled at. -/
def pollable (seconds : Binary64) : Option Duration :=
  if validInterval seconds then Duration.ofBinary64? seconds else none

lemma pollable_eq_some_iff {seconds : Binary64} {period : Duration} :
    pollable seconds = some period ↔
      Duration.ofBinary64? seconds = some period ∧ period.isZero = false ∧
        period ≤ Config.maxPollFrequency := by
  unfold pollable validInterval
  cases h : Duration.ofBinary64? seconds with
  | none => simp
  | some other =>
    simp only [Bool.and_eq_true, Bool.not_eq_true', decide_eq_true_eq,
      Option.ite_none_right_eq_some]
    constructor
    · rintro ⟨hvalid, hother⟩
      obtain rfl := Option.some.inj hother
      exact ⟨rfl, hvalid⟩
    · rintro ⟨hother, hvalid⟩
      obtain rfl := Option.some.inj hother
      exact ⟨hvalid, rfl⟩

lemma validInterval_iff {seconds : Binary64} :
    validInterval seconds = true ↔ ∃ period, pollable seconds = some period := by
  simp only [pollable_eq_some_iff, validInterval]
  cases Duration.ofBinary64? seconds with
  | none => simp
  | some period => simp

/-- Adopting an interval fails before the timeout is asked for, or with it, or not at all. -/
lemma Cadence.adopt_eq (clockEnd now : Nat) (refusal : Option PollError) {seconds : Binary64}
    {period : Duration} (h : Duration.ofBinary64? seconds = some period)
    (hpos : period.isZero = false) (cadence : Cadence) :
    Cadence.adopt clockEnd now refusal seconds cadence =
      if clockEnd < now + period.nanos then (.error (.invalidInterval seconds), cadence, [])
      else
        match refusal with
        | some error => (.error error, cadence, [.setTimeout period])
        | none => (.ok (), ⟨seconds, .every period.nanos now, period⟩, [.setTimeout period]) := by
  by_cases hend : clockEnd < now + period.nanos
  · have hticker : Ticker.start clockEnd now seconds = .error (.invalidInterval seconds) := by
      simp [Ticker.start, h, hend]
    rw [if_pos hend]
    simp only [adopt, hticker]
  · have hticker : Ticker.start clockEnd now seconds = .ok (.every period.nanos now) := by
      simp [Ticker.start, h, hpos, hend]
    rw [if_neg hend]
    cases refusal with
    | none => simp only [adopt, hticker, h]
    | some error => simp only [adopt, hticker, h]

namespace Service

variable {α : Type} (observer : Observer α) (s : Service) (response : Response)

/-! ## The dispatch of an answer -/

/-- The timeout that the dispatch of an answer asks for, if it does. -/
def wantedTimeout : Option Duration :=
  if response.checkin.sameNumber s.cadence.interval then none
  else (pollable response.checkin).filter fun period =>
    decide (s.world.nanos + period.nanos ≤ s.clockEnd)

lemma wantedTimeout_eq_some_iff {s : Service} {response : Response} {timeout : Duration} :
    s.wantedTimeout response = some timeout ↔
      response.checkin.sameNumber s.cadence.interval = false ∧
        pollable response.checkin = some timeout ∧
          s.world.nanos + timeout.nanos ≤ s.clockEnd := by
  unfold wantedTimeout
  cases response.checkin.sameNumber s.cadence.interval with
  | true => simp
  | false => simp [Option.filter_eq_some_iff]

/-- The cadence after the dispatch of an answer. -/
def dispatchedCadence : Cadence :=
  match s.wantedTimeout response, s.timeoutRefusal with
  | some period, none => ⟨response.checkin, .every period.nanos s.world.nanos, period⟩
  | _, _ => s.cadence

/-- Of the adoption of an interval only the call of the source is seen. -/
lemma adoption_eq :
    (s.adoption response).2.1 = s.dispatchedCadence response ∧
      observer.seen (s.adoption response).2.2 =
        ((s.wantedTimeout response).bind fun timeout =>
          observer.see (.setTimeout timeout)).toList := by
  by_cases hsame : response.checkin.sameNumber s.cadence.interval = true
  · simp [adoption, Dispatch.adoptInterval, Cadence.control, dispatchedCadence, wantedTimeout,
      hsame]
  cases hpoll : pollable response.checkin with
  | none =>
    have hvalid : validInterval response.checkin = false := by
      by_contra hvalid
      simp only [Bool.not_eq_false] at hvalid
      obtain ⟨period, hperiod⟩ := validInterval_iff.mp hvalid
      rw [hpoll] at hperiod
      cases hperiod
    simp [adoption, Dispatch.adoptInterval, Cadence.control, dispatchedCadence, wantedTimeout,
      hsame, hvalid, hpoll, observer.see_log]
  | some period =>
    obtain ⟨hperiod, hpos, hle⟩ := pollable_eq_some_iff.mp hpoll
    have hvalid : validInterval response.checkin = true := by
      simp [validInterval, hperiod, hpos, hle]
    have hadopt := Cadence.adopt_eq s.clockEnd s.world.nanos s.timeoutRefusal hperiod hpos s.cadence
    simp only [adoption, Dispatch.adoptInterval, Cadence.control, dispatchedCadence, wantedTimeout,
      hsame, hvalid, hpoll, hadopt]
    by_cases hend : s.clockEnd < s.world.nanos + period.nanos
    · simp [hend, Option.filter, Nat.not_le_of_lt hend, observer.see_log]
    · cases s.timeoutRefusal <;>
        simp [hend, Option.filter, Nat.le_of_not_lt hend, observer.see_log]

lemma adoption_cadence : (s.adoption response).2.1 = s.dispatchedCadence response :=
  (adoption_eq ⟨fun _ => (none : Option Event), fun _ => rfl⟩ s response).1

/-- The four subsystems are called in their order. -/
lemma seen_dispatchEvents :
    observer.seen (s.dispatchEvents response) =
      (observer.see (.apply response.schedules)).toList ++
        (observer.see (.collect response.logRequests)).toList ++
          ((s.wantedTimeout response).bind fun timeout =>
            observer.see (.setTimeout timeout)).toList ++
            (response.stackVersions.bind fun versions =>
              observer.see (.reconcile versions)).toList := by
  have happly : observer.seen (Dispatch.applySchedules s.collaborators response).2 =
      (observer.see (.apply response.schedules)).toList := by
    simp [Dispatch.applySchedules]
  have hreconcile : observer.seen (Dispatch.reconcileStacks s.collaborators response).2 =
      (response.stackVersions.bind fun versions => observer.see (.reconcile versions)).toList := by
    unfold Dispatch.reconcileStacks
    cases response.stackVersions <;> simp
  have hrecords : ∀ result, observer.seen (cycleRecords result) = [] := by
    rintro (error | _)
    · simp [cycleRecords, observer.see_log]
    · rfl
  simp [dispatchEvents, happly, (adoption_eq observer s response).2, hreconcile, hrecords]

/-! ## The reaction to an answer -/

/-- Whether the transport reports that a tunnel is there. -/
def tunnelIsOpen : Bool := s.world.control.transport.isOpen

/-- Whether an answer has a tunnel opened, if what it sends is accepted. -/
def opensFor : Bool := s.world.hasTunnel && s.world.control.mustOpen response.status

/-- The parameters with which an answer has a tunnel opened, if what it sends is accepted. -/
def accepted : Option TunnelParameters :=
  match decodeCredentials s.decrypt s.identity.edgeId response.credentials,
      remotePort response.port with
  | .ok credentials, .ok port => some (TunnelControl.parameters s.identity credentials port)
  | _, _ => none

lemma closesFor_iff {s : Service} {response : Response} :
    s.closesFor response = true ↔
      s.world.hasTunnel = true ∧ response.status = .idle ∧ s.tunnelIsOpen = true := by
  cases ho : s.tunnelIsOpen <;>
    simp_all [closesFor, TunnelControl.mustClose, Transport.state, TunnelState.ofOpen, tunnelIsOpen]

lemma opensFor_iff {s : Service} {response : Response} :
    s.opensFor response = true ↔
      s.world.hasTunnel = true ∧ response.status = .required ∧ s.tunnelIsOpen = false := by
  cases ho : s.tunnelIsOpen <;>
    simp_all [opensFor, TunnelControl.mustOpen, Transport.state, TunnelState.ofOpen, tunnelIsOpen]

/-- No answer asks for both. -/
lemma opensFor_of_closesFor {s : Service} {response : Response} (h : s.closesFor response = true) :
    s.opensFor response = false := by
  by_contra hopens
  have hidle := (closesFor_iff.mp h).2.1
  have hrequired := (opensFor_iff.mp (Bool.of_not_eq_false hopens)).2.1
  rw [hidle] at hrequired
  cases hrequired

/-- Whether the reaction to an answer does not fail. -/
def reacts : Bool :=
  match (s.reaction response).1 with
  | .ok _ => true
  | .error _ => false

/-- Of a reaction that does not close the tunnel, only the call to open one is seen, also if it
is refused. -/
lemma seen_reaction :
    observer.seen (s.reaction response).2.2 =
      if s.opensFor response then
        ((s.accepted response).bind fun parameters => observer.see (.openTunnel parameters)).toList
      else [] := by
  unfold reaction
  cases hopens : s.opensFor response with
  | false =>
    rw [opensFor] at hopens
    simp [hopens]
  | true =>
    rw [opensFor] at hopens
    rw [if_pos hopens, TunnelControl.openFor_eq, accepted]
    rcases decodeCredentials s.decrypt s.identity.edgeId response.credentials with
      error | credentials
    · simp [observer.see_log]
    rcases remotePort response.port with error | port
    · simp [observer.see_log]
    cases s.world.control.transport.refusesOpen <;> simp [observer.see_log]

/-- The way of a tunnel that is opened, or the old one. -/
lemma control_reaction :
    (s.reaction response).2.1 =
      if s.opensFor response && (s.accepted response).isSome &&
        !s.world.control.transport.refusesOpen then
        s.world.control.afterOpening ((s.accepted response).getD default)
      else s.world.control := by
  unfold reaction
  cases hopens : s.opensFor response with
  | false =>
    rw [opensFor] at hopens
    simp [hopens]
  | true =>
    rw [opensFor] at hopens
    rw [if_pos hopens, TunnelControl.openFor_eq, accepted]
    rcases decodeCredentials s.decrypt s.identity.edgeId response.credentials with
      error | credentials
    · simp
    rcases remotePort response.port with error | port
    · simp
    cases s.world.control.transport.refusesOpen <;> simp

lemma control_answerOutcome :
    (s.answerOutcome (.ok response)).control = (s.reaction response).2.1 := by
  have hcontrol : (s.answerOutcome (.ok response)).control =
      (s.reactOutcome response).control := rfl
  rw [hcontrol, reactOutcome]
  cases hcloses : s.closesFor response with
  | true =>
    rw [control_reaction, opensFor_of_closesFor hcloses]
    rfl
  | false => rcases s.reaction response with ⟨error | action, control, events⟩ <;> rfl

/-- A cycle ends with its answer unless the tunnel is to be closed first. -/
lemma phase_answerOutcome :
    (s.answerOutcome (.ok response)).phase =
      if s.closesFor response then .closing (s.world.now + s.world.closeDelay) response
      else .waiting := by
  have hphase : (s.answerOutcome (.ok response)).phase = (s.reactOutcome response).phase := rfl
  rw [hphase, reactOutcome]
  cases s.closesFor response with
  | true => rfl
  | false => rcases s.reaction response with ⟨error | action, control, events⟩ <;> rfl

/-- An answer is dispatched at once unless the tunnel is to be closed or its reaction fails. -/
lemma cadence_answerOutcome :
    (s.answerOutcome (.ok response)).cadence =
      if s.closesFor response || !s.reacts response then s.cadence
      else s.dispatchedCadence response := by
  have hcadence : (s.answerOutcome (.ok response)).cadence =
      (s.reactOutcome response).cadence := rfl
  rw [hcadence, reactOutcome]
  cases s.closesFor response with
  | true => rfl
  | false =>
    unfold reacts
    rcases s.reaction response with ⟨error | action, control, events⟩
    · rfl
    · exact adoption_cadence s response

/-- What is seen of an answer until the cycle ends or waits for the end of closing. -/
lemma seen_answerOutcome :
    observer.seen (s.answerOutcome (.ok response)).events =
      if s.closesFor response then (observer.see .closeTunnel).toList
      else observer.seen (s.reaction response).2.2 ++
        if s.reacts response then observer.seen (s.dispatchEvents response) else [] := by
  have hreceived : observer.seen (s.answerOutcome (.ok response)).events =
      observer.seen (s.reactOutcome response).events := by
    simp [answerOutcome, observer.see_log]
  rw [hreceived, reactOutcome]
  cases s.closesFor response with
  | true => simp [TunnelControl.beginClose, observer.see_log]
  | false =>
    unfold reacts
    rcases s.reaction response with ⟨error | action, control, events⟩ <;> simp [observer.see_log]

/-! ## Every act -/

lemma seen_closingRecords (control : TunnelControl) :
    observer.seen control.closingRecords = [] := by
  unfold TunnelControl.closingRecords
  split <;> simp [observer.see_log]

/-- Only a tick, an answer, the end of closing in a cycle, and a check make calls. -/
theorem seen_eventsOf (act : Act) :
    observer.seen (s.eventsOf act) =
      match act with
      | .tick => (observer.see (.fetch s.cadence.timeout)).toList
      | .answered =>
        match s.phase with
        | .fetching _ (.ok response) => observer.seen (s.answerOutcome (.ok response)).events
        | _ => []
      | .closed =>
        match s.phase with
        | .closing _ response => observer.seen (s.dispatchEvents response)
        | _ => []
      | .check => if s.reaper.closesNow s.world then (observer.see .closeTunnel).toList else []
      | _ => [] := by
  cases act with
  | tick => simp [eventsOf]
  | answered =>
    cases hp : s.phase with
    | fetching done answer =>
      cases answer with
      | error code => simp [eventsOf, hp, answerOutcome, observer.see_log]
      | ok response => simp [eventsOf, hp]
    | _ => simp [eventsOf, hp]
  | closed =>
    cases hp : s.phase with
    | closing done response => simp [eventsOf, hp, closeOutcome, seen_closingRecords]
    | _ => simp [eventsOf, hp]
  | check =>
    simp only [eventsOf, Reaper.checkEvents]
    cases hl : s.reaper.lastActivity with
    | none => simp [Reaper.closesNow, hl, idleExpired]
    | some last =>
      by_cases ht : s.world.hasTunnel = true
      · cases hc : s.reaper.closesNow s.world <;> simp [ht, observer.see_log]
      · simp [ht, Reaper.closesNow]
  | start | stop =>
    simp only [eventsOf]
    split <;> simp [observer.see_log]
  | reportActivity =>
    simp only [eventsOf]
    split <;> simp
  | reaperClosed => exact seen_closingRecords observer _
  | _ => simp [eventsOf, observer.see_log]

end Service

end CheckIn
