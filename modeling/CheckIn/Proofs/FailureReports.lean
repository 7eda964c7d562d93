/-
# What is reported of failures

A failure shows in one of four places: where a step of a cycle is only reported, at the end of a
cycle, where the tunnel is opened, and at a check of the reaper.  This file says which steps a
cycle attempts and how each of them ends (`Service.attempts`), told by what the collaborators
return, and pairs the attempts with the records of level ERROR and WARN (`AccountsFor`).

Each step that fails is reported once, and a transport that refuses to open once more; the error
of a record ends with the text of the error that the collaborator returned; and nothing else is
reported at this level.  An interval that cannot be polled at is no failure, and is reported at
level WARN (`Service.failures_reported`).
-/
import CheckIn.Proofs.CycleLaw
import Mathlib.Data.List.Nodup

namespace CheckIn

/-! ## Records -/

/-- The record that an event writes, if it writes one. -/
def Event.record? : Event → Option LogRecord
  | .log record => some record
  | _ => none

/-- The records of a level among some events, in order. -/
def recordsAt (level : LogLevel) (events : List Event) : List LogRecord :=
  (events.filterMap Event.record?).filter (·.level = level)

section

variable (level : LogLevel) (event : Event) (events more : List Event)

@[simp] lemma recordsAt_nil : recordsAt level [] = [] := rfl

@[simp] lemma recordsAt_append :
    recordsAt level (events ++ more) = recordsAt level events ++ recordsAt level more := by
  simp [recordsAt]

@[simp] lemma recordsAt_cons :
    recordsAt level (event :: events) =
      event.record?.toList.filter (·.level = level) ++ recordsAt level events := by
  cases h : event.record? with
  | none => simp [recordsAt, h]
  | some record => by_cases hlevel : record.level = level <;> simp [recordsAt, h, hlevel]

end

/-- Neither an error nor a warning is among some events. -/
def Quiet (events : List Event) : Prop :=
  recordsAt .error events = [] ∧ recordsAt .warn events = []

/-- Reports of activity are neither. -/
lemma quiet_report (activity : ActivitySlot) (isOpen : Bool) :
    Quiet ((activity.report isOpen).2.map .log) := by
  unfold ActivitySlot.report
  repeat' split
  all_goals exact ⟨rfl, rfl⟩

/-- The step of a cycle that an error belongs to. -/
def AgentError.step? : AgentError → Option CycleStep
  | .poll _ => some .fetch
  | .tunnel (.credentialEncoding _) | .tunnel (.decrypt _) | .tunnel .credentialText =>
    some .credentials
  | .tunnel (.invalidPort _) | .tunnel (.refusedOpen _) => some .tunnelOpen
  | .tunnel (.refusedClose _) => some .tunnelClose
  | .dispatch (.schedule _) => some .schedule
  | .dispatch (.cadence _ _) => some .cadence
  | .dispatch (.stackReconcile _) => some .stackReconcile
  | .config _ => none

/-- The step whose failure a record reports. -/
def LogRecord.step? : LogRecord → Option CycleStep
  | .stepFailed step _ => some step
  | .tunnelRefused _ => some .tunnelOpen
  | .cycleFailed error => error.step?
  | _ => none

/-! ## Attempts -/

/-- How a step ends. -/
inductive Ending
  | success
  /-- The agent itself finds a fault. -/
  | fault
  /-- A collaborator returns an error, of which this is the full text. -/
  | refusal (text : String)
  /-- Nothing is tried, because an interval cannot be polled at. -/
  | ignored (seconds : Binary64)
deriving DecidableEq

/-- The ending of a step that hands something to a collaborator. -/
def Ending.ofResult {ε α : Type} (text : ε → String) : Except ε α → Ending
  | .ok _ => success
  | .error error => refusal (text error)

/-- A step of a cycle that is attempted. -/
structure Attempt where
  step : CycleStep
  ending : Ending
deriving DecidableEq

/-- A failure: the step, and the full text of the error if it comes from a collaborator. -/
structure Failure where
  step : CycleStep
  said : Option String

/-- A record reports a failure: it belongs to the same step, and its error ends with what the
collaborator said. -/
def LogRecord.Reports (record : LogRecord) (failure : Failure) : Prop :=
  record.step? = some failure.step ∧
    ∀ said ∈ failure.said, ∃ front, ("error", LogValue.text (front ++ said)) ∈ record.fields

namespace Attempt

def fails (attempt : Attempt) : Bool :=
  match attempt.ending with
  | .fault | .refusal _ => true
  | .success | .ignored _ => false

/-- Whether the cycle ends with this attempt. -/
def cuts (attempt : Attempt) : Bool :=
  attempt.fails && decide (attempt.step.policy = .propagate)

/-- Whether the transport itself refuses to open. -/
def refusesOpening (attempt : Attempt) : Bool :=
  match attempt.step, attempt.ending with
  | .tunnelOpen, .refusal _ => true
  | _, _ => false

/-- The failures that are to be reported of an attempt. -/
def failures (attempt : Attempt) : List Failure :=
  match attempt.ending with
  | .success | .ignored _ => []
  | .fault => [⟨attempt.step, none⟩]
  | .refusal text =>
    List.replicate (if attempt.refusesOpening then 2 else 1) ⟨attempt.step, some text⟩

/-- The warnings that are to be given of an attempt. -/
def warnings (attempt : Attempt) : List LogRecord :=
  match attempt.ending with
  | .ignored seconds => [.intervalIgnored seconds]
  | .success | .fault | .refusal _ => []

/-- A failure is reported once, and once more if it is the transport that refuses to open. -/
lemma length_failures (attempt : Attempt) :
    attempt.failures.length = attempt.fails.toNat + attempt.refusesOpening.toNat := by
  obtain ⟨step, success | fault | text | seconds⟩ := attempt <;> cases step <;> rfl

lemma step_of_mem_failures {attempt : Attempt} {failure : Failure}
    (hmem : failure ∈ attempt.failures) : attempt.fails = true ∧ failure.step = attempt.step := by
  obtain ⟨step, success | fault | text | seconds⟩ := attempt
  · cases hmem
  · exact ⟨rfl, congrArg Failure.step (List.mem_singleton.mp hmem)⟩
  · exact ⟨rfl, congrArg Failure.step (List.eq_of_mem_replicate hmem)⟩
  · cases hmem

end Attempt

/-- The errors and warnings among some events are those of some attempts, in order. -/
structure AccountsFor (events : List Event) (attempts : List Attempt) : Prop where
  errors : List.Forall₂ LogRecord.Reports (recordsAt .error events)
    (attempts.flatMap Attempt.failures)
  warnings : recordsAt .warn events = attempts.flatMap Attempt.warnings

section

variable {events more : List Event} {attempts later : List Attempt} {ε ε' α : Type}

lemma AccountsFor.append (h : AccountsFor events attempts) (h' : AccountsFor more later) :
    AccountsFor (events ++ more) (attempts ++ later) := by
  constructor
  · rw [recordsAt_append, List.flatMap_append]
    exact List.rel_append h.errors h'.errors
  · rw [recordsAt_append, List.flatMap_append, h.warnings, h'.warnings]

/-- Nothing is reported of a success. -/
lemma Quiet.accountsFor (h : Quiet events)
    (hattempts : ∀ attempt ∈ attempts, attempt.ending = .success) :
    AccountsFor events attempts := by
  have hnone : attempts.flatMap Attempt.failures = [] ∧
      attempts.flatMap Attempt.warnings = [] := by
    constructor <;> rw [List.flatMap_eq_nil_iff] <;> intro attempt hmem
    · simp [Attempt.failures, hattempts attempt hmem]
    · simp [Attempt.warnings, hattempts attempt hmem]
  constructor
  · rw [h.1, hnone.1]
    exact .nil
  · rw [h.2, hnone.2]

/-- What is neither an error nor a warning makes no difference. -/
lemma Quiet.append (h : Quiet events) (h' : AccountsFor more later) :
    AccountsFor (events ++ more) later := by
  have hnothing : AccountsFor events [] := h.accountsFor (by simp)
  exact hnothing.append h'

/-- A record of level ERROR reports the failure of an attempt. -/
lemma accountsFor_record {record : LogRecord} {attempt : Attempt} {failure : Failure}
    (hlevel : record.level = .error) (hfailures : attempt.failures = [failure])
    (hwarnings : attempt.warnings = []) (hreports : record.Reports failure) :
    AccountsFor [.log record] [attempt] := by
  constructor
  · rw [List.flatMap_singleton, hfailures]
    simpa [Event.record?, hlevel] using hreports
  · rw [List.flatMap_singleton, hwarnings]
    simp [Event.record?, hlevel]

/-- A step whose failures are only reported tells them where it is done. -/
lemma accountsFor_handle (step : CycleStep) {text : ε' → String} {wrap : ε → ε'}
    {said : ε → String} (hpolicy : step.policy = .logAndContinue)
    (htext : ∀ error, ∃ front, text (wrap error) = front ++ said error) (result : Except ε α) :
    AccountsFor ((step.handle text (result.mapError wrap)).2.map .log)
      [⟨step, .ofResult said result⟩] := by
  rcases result with error | value
  · obtain ⟨front, hfront⟩ := htext error
    have hrecords : (step.handle text ((Except.error error : Except ε α).mapError wrap)).2 =
        [.stepFailed step (front ++ said error)] := by
      simp [CycleStep.handle, Except.mapError, hpolicy, hfront]
    have hfailures : Attempt.failures ⟨step, .ofResult said (.error error : Except ε α)⟩ =
        [⟨step, some (said error)⟩] := by
      cases step <;> first | rfl | cases hpolicy
    rw [hrecords]
    refine accountsFor_record rfl hfailures rfl ⟨rfl, ?_⟩
    rintro _ ⟨rfl⟩
    exact ⟨front, by simp [LogRecord.fields]⟩
  · exact Quiet.accountsFor ⟨rfl, rfl⟩ (by simp [Ending.ofResult])

/-- The end of a cycle reports the fault that the agent found. -/
lemma accountsFor_fault {error : AgentError} {step : CycleStep} (hstep : error.step? = some step) :
    AccountsFor [.log (.cycleFailed error)] [⟨step, .fault⟩] :=
  accountsFor_record rfl rfl rfl ⟨hstep, by simp⟩

/-- The error with which a cycle ends contains that of the collaborator, which is wrapped once or
twice. -/
lemma reports_cycleFailed {error : AgentError} {step : CycleStep} {outer inner said : String}
    (hstep : error.step? = some step) (hmessage : error.message = outer ++ (inner ++ said)) :
    LogRecord.Reports (.cycleFailed error) ⟨step, some said⟩ := by
  refine ⟨hstep, ?_⟩
  rintro _ ⟨rfl⟩
  refine ⟨outer ++ inner, ?_⟩
  rw [String.append_assoc, ← hmessage]
  simp [LogRecord.fields]

end

namespace Service

variable {s₀ s s' a d : Service} {act : Act} {ms : List Move} {response : Response}

/-! ## The attempts of a cycle -/

/-- How the credentials of an answer are decoded and decrypted. -/
def credentialsEnding (a : Service) (response : Response) : Ending :=
  match Base64.decode (utf8 response.credentials) with
  | .error _ => .fault
  | .ok ciphertext =>
    match a.decrypt ciphertext a.identity.edgeId.key with
    | .error reason => .refusal reason
    | .ok plain => if (ofUtf8? plain).isSome then .success else .fault

/-- How a tunnel is opened for an answer whose credentials are accepted: the port has to fit, and
then it is for the transport. -/
def openingEnding (a : Service) (response : Response) : Ending :=
  match a.accepted response with
  | none => .fault
  | some parameters => .ofResult id (a.world.control.transport.tryOpen parameters).1

/-- The attempts of the reaction to an answer that arrives at `a`.  If the tunnel is to be closed,
closing comes to its end at `d`. -/
def tunnelAttempts (a d : Service) (response : Response) : List Attempt :=
  if a.closesFor response then [⟨.tunnelClose, .ofResult id d.world.control.transport.tryClose.1⟩]
  else if a.opensFor response then
    ⟨.credentials, a.credentialsEnding response⟩ ::
      if a.credentialsEnding response = .success then [⟨.tunnelOpen, a.openingEnding response⟩]
      else []
  else []

/-- The attempt to adopt the interval of an answer, if it is another one. -/
def cadenceAttempts (d : Service) (response : Response) : List Attempt :=
  if response.checkin.sameNumber d.cadence.interval then []
  else if validInterval response.checkin then
    [⟨.cadence, .ofResult PollError.message
      (Cadence.adopt d.clockEnd d.world.nanos d.timeoutRefusal response.checkin d.cadence).1⟩]
  else [⟨.cadence, .ignored response.checkin⟩]

/-- The attempt to hand over the stack targets, if the answer speaks of stacks. -/
def reconcileAttempts (d : Service) (response : Response) : List Attempt :=
  if response.stackVersions.isSome then
    [⟨.stackReconcile, .ofResult id d.collaborators.reconciler⟩]
  else []

/-- The attempts of the dispatch of an answer. -/
def dispatchAttempts (d : Service) (response : Response) : List Attempt :=
  ⟨.schedule, .ofResult id d.collaborators.scheduler⟩ ::
    (d.cadenceAttempts response ++ d.reconcileAttempts response)

/-- The attempts of a cycle that begins at `s₀`, whose answer arrives at `a` and is dispatched by
`d` unless the reaction cuts the cycle. -/
def attempts (s₀ a d : Service) : List Attempt :=
  ⟨.fetch, .ofResult PollError.message s₀.source.next.1⟩ ::
    match s₀.source.next.1 with
    | .error _ => []
    | .ok response =>
      tunnelAttempts a d response ++
        if (tunnelAttempts a d response).any Attempt.cuts then [] else dispatchAttempts d response

/-! ## What the parts of a cycle tell -/

/-- Closing tells its failure, whoever asked for it. -/
lemma accountsFor_closing (control : TunnelControl) :
    AccountsFor control.closingRecords
      [⟨.tunnelClose, .ofResult id control.transport.tryClose.1⟩] := by
  have hclosing : control.closingRecords =
      (CycleStep.tunnelClose.handle TunnelError.message
        (control.transport.tryClose.1.mapError .refusedClose)).2.map .log := by
    unfold TunnelControl.closingRecords Transport.tryClose
    cases control.transport.refusesClose <;> rfl
  have htext : ∀ reason, ∃ front, (TunnelError.refusedClose reason).message = front ++ id reason :=
    fun reason => ⟨"Unable to shutdown tunnel: ", rfl⟩
  rw [hclosing]
  exact accountsFor_handle .tunnelClose rfl htext _

lemma accountsFor_schedules (d : Service) (response : Response) :
    AccountsFor (Dispatch.applySchedules d.collaborators response).2
      [⟨.schedule, .ofResult id d.collaborators.scheduler⟩] := by
  have htext : ∀ reason, ∃ front, (DispatchError.schedule reason).message = front ++ id reason :=
    fun reason => ⟨"Schedule management failed: ", rfl⟩
  have hcall : Quiet [.apply response.schedules] := ⟨rfl, rfl⟩
  exact hcall.append (accountsFor_handle .schedule rfl htext d.collaborators.scheduler)

/-- An interval that is adopted or refused tells its failure, one that is ignored gives a
warning. -/
lemma accountsFor_adoption (d : Service) (response : Response) :
    AccountsFor (d.adoption response).2.2 (d.cadenceAttempts response) := by
  unfold cadenceAttempts
  by_cases hsame : response.checkin.sameNumber d.cadence.interval = true
  · rw [if_pos hsame]
    have hevents : (d.adoption response).2.2 = [] := by
      simp [adoption, Dispatch.adoptInterval, Cadence.control, hsame]
    rw [hevents]
    exact Quiet.accountsFor ⟨rfl, rfl⟩ (by simp)
  rw [if_neg hsame]
  by_cases hvalid : validInterval response.checkin = true
  · rw [if_pos hvalid]
    have htext : ∀ cause : PollError, ∃ front,
        (DispatchError.cadence response.checkin cause).message = front ++ cause.message :=
      fun cause => ⟨"Unable to apply poll interval of " ++
        NumberStyle.prose.write response.checkin ++ "s: ", rfl⟩
    have hcalls : Quiet (.log (.intervalChanged d.cadence.interval response.checkin) ::
        (Cadence.adopt d.clockEnd d.world.nanos d.timeoutRefusal response.checkin
          d.cadence).2.2) := by
      unfold Cadence.adopt
      repeat' split
      all_goals exact ⟨rfl, rfl⟩
    have htold := hcalls.append (accountsFor_handle .cadence rfl htext (Cadence.adopt d.clockEnd
      d.world.nanos d.timeoutRefusal response.checkin d.cadence).1)
    simpa [adoption, Dispatch.adoptInterval, Cadence.control, hsame, hvalid] using htold
  · rw [if_neg hvalid]
    have hevents : (d.adoption response).2.2 = [.log (.intervalIgnored response.checkin)] := by
      simp [adoption, Dispatch.adoptInterval, Cadence.control, hsame, hvalid]
    rw [hevents]
    exact ⟨.nil, rfl⟩

/-- A reconciler that refuses is told of at the end of the cycle. -/
lemma accountsFor_reconciling (d : Service) (response : Response) :
    AccountsFor ((Dispatch.reconcileStacks d.collaborators response).2 ++
      cycleRecords ((Dispatch.reconcileStacks d.collaborators response).1.mapError .dispatch))
      (d.reconcileAttempts response) := by
  unfold Dispatch.reconcileStacks reconcileAttempts
  rcases response.stackVersions with _ | versions
  · exact Quiet.accountsFor ⟨rfl, rfl⟩ (by simp)
  · have hcall : Quiet [.reconcile versions] := ⟨rfl, rfl⟩
    rcases d.collaborators.reconciler with reason | _
    · exact hcall.append (accountsFor_record rfl rfl rfl (reports_cycleFailed rfl rfl))
    · exact hcall.accountsFor (by simp [Ending.ofResult])

/-- The dispatch of an answer tells what failed of it. -/
lemma accountsFor_dispatch (d : Service) (response : Response) :
    AccountsFor (d.dispatchEvents response) (dispatchAttempts d response) := by
  have hsplit : d.dispatchEvents response =
      (Dispatch.applySchedules d.collaborators response).2 ++ ([.collect response.logRequests] ++
        ((d.adoption response).2.2 ++ ((Dispatch.reconcileStacks d.collaborators response).2 ++
          cycleRecords
            ((Dispatch.reconcileStacks d.collaborators response).1.mapError .dispatch)))) := by
    simp [dispatchEvents]
  have hcall : Quiet [.collect response.logRequests] := ⟨rfl, rfl⟩
  rw [hsplit]
  exact (accountsFor_schedules d response).append (hcall.append
    ((accountsFor_adoption d response).append (accountsFor_reconciling d response)))

/-- Credentials are accepted, or their failure is told of at the end of the cycle. -/
lemma credentials_cases (a : Service) (response : Response) :
    (∃ credentials, decodeCredentials a.decrypt a.identity.edgeId response.credentials =
        .ok credentials ∧ a.credentialsEnding response = .success) ∨
      ∃ error, decodeCredentials a.decrypt a.identity.edgeId response.credentials =
          .error error ∧ a.credentialsEnding response ≠ .success ∧
        (⟨.credentials, a.credentialsEnding response⟩ : Attempt).cuts = true ∧
        AccountsFor [.log (.cycleFailed (.tunnel error))]
          [⟨.credentials, a.credentialsEnding response⟩] := by
  unfold decodeCredentials credentialsEnding
  rcases Base64.decode (utf8 response.credentials) with fault | ciphertext
  · exact .inr ⟨.credentialEncoding fault, rfl, by simp, rfl, accountsFor_fault rfl⟩
  simp only [Except.mapError, bind, Except.bind]
  rcases a.decrypt ciphertext a.identity.edgeId.key with reason | plain
  · exact .inr ⟨.decrypt reason, rfl, by simp, rfl,
      accountsFor_record rfl rfl rfl (reports_cycleFailed rfl rfl)⟩
  dsimp only
  cases ofUtf8? plain with
  | some text => exact .inl ⟨text, rfl, rfl⟩
  | none => exact .inr ⟨.credentialText, rfl, by simp, rfl, accountsFor_fault rfl⟩

/-- The port does not fit, or the transport refuses, or the tunnel is there. -/
lemma opening_cases (a : Service) {credentials : String}
    (haccepted : decodeCredentials a.decrypt a.identity.edgeId response.credentials =
      .ok credentials) :
    (∃ action control events, a.world.control.openFor a.decrypt a.identity response.credentials
        response.port = (.ok action, control, events) ∧ a.openingEnding response = .success ∧
        Quiet events) ∨
      ∃ error control events, a.world.control.openFor a.decrypt a.identity response.credentials
          response.port = (.error error, control, events) ∧
        (⟨.tunnelOpen, a.openingEnding response⟩ : Attempt).cuts = true ∧
        AccountsFor (events ++ [.log (.cycleFailed (.tunnel error))])
          [⟨.tunnelOpen, a.openingEnding response⟩] := by
  rw [TunnelControl.openFor_eq, openingEnding, accepted, haccepted]
  have hrequest : Quiet [.log .tunnelRequested] := ⟨rfl, rfl⟩
  by_cases hfits : 0 ≤ response.port.toInt ∧ response.port.toInt < 0x10000
  · have hport : remotePort response.port = .ok response.port.toInt.toNat := if_pos hfits
    rw [hport]
    dsimp only
    unfold Transport.tryOpen
    cases a.world.control.transport.refusesOpen with
    | false =>
      refine .inl ⟨_, _, _, rfl, rfl, ?_⟩
      obtain ⟨herrors, hwarnings⟩ := quiet_report a.world.control.activity true
      constructor
      · simp [herrors, Event.record?, LogRecord.level]
      · simp [hwarnings, Event.record?, LogRecord.level]
    | true =>
      have hrefused : LogRecord.Reports (.tunnelRefused a.world.control.transport.openFault)
          ⟨.tunnelOpen, some a.world.control.transport.openFault⟩ := by
        refine ⟨rfl, ?_⟩
        rintro _ ⟨rfl⟩
        exact ⟨"", by simp [LogRecord.fields]⟩
      exact .inr ⟨_, _, _, rfl, rfl,
        .cons hrefused (.cons (reports_cycleFailed rfl rfl) .nil), rfl⟩
  · have hport : remotePort response.port = .error (.invalidPort response.port) := if_neg hfits
    rw [hport]
    exact .inr ⟨_, _, _, rfl, rfl, hrequest.append (accountsFor_fault rfl)⟩

/-- A reaction that does not close the tunnel tells its failure, and so does its cycle. -/
lemma accountsFor_reaction (hcloses : a.closesFor response = false) :
    AccountsFor (a.reactOutcome response).events
      (tunnelAttempts a d response ++
        if (tunnelAttempts a d response).any Attempt.cuts then []
        else dispatchAttempts a response) := by
  unfold reactOutcome tunnelAttempts reaction
  rw [hcloses]
  cases hopens : a.opensFor response with
  | false =>
    rw [opensFor] at hopens
    simpa [hopens] using accountsFor_dispatch a response
  | true =>
    rw [opensFor] at hopens
    simp only [hopens, if_true]
    obtain ⟨credentials, haccepted, hsuccess⟩ | ⟨error, hrejected, hends, hcuts, htold⟩ :=
      credentials_cases a response
    · have huncut : (⟨.credentials, .success⟩ : Attempt).cuts = false := rfl
      have hfirst : AccountsFor [] [⟨.credentials, .success⟩] :=
        Quiet.accountsFor ⟨rfl, rfl⟩ (by simp)
      obtain ⟨action, control, events, hopened, hsuccess', hquiet⟩ |
        ⟨error, control, events, hopened, hcuts, htold⟩ := opening_cases a haccepted
      · have huncut' : (⟨.tunnelOpen, .success⟩ : Attempt).cuts = false := rfl
        have hsecond : AccountsFor events [⟨.tunnelOpen, .success⟩] :=
          hquiet.accountsFor (by simp)
        simpa [hopened, hsuccess, hsuccess', huncut, huncut'] using
          (hfirst.append hsecond).append (accountsFor_dispatch a response)
      · simpa [hopened, hsuccess, huncut, hcuts] using hfirst.append htold
    · have hrequest : Quiet [.log .tunnelRequested] := ⟨rfl, rfl⟩
      have hopened : a.world.control.openFor a.decrypt a.identity response.credentials
          response.port = (.error error, a.world.control, [.log .tunnelRequested]) := by
        rw [TunnelControl.openFor_eq, hrejected]
      simpa [hopened, hends, hcuts] using hrequest.append htold

/-! ## What a cycle tells -/

/-- The events of some moves, the last one of which is first, in order. -/
def eventsOfAll (ms : List Move) : List Event := ms.reverse.flatMap Move.events

/-- What a cycle tells that ends with its answer. -/
lemma Arrives.accountsFor (harrives : Arrives s₀ a)
    (hcloses : closesFirst a s₀.source.next.1 = false) :
    AccountsFor (eventsOfAll [⟨a, .answered⟩, ⟨s₀, .tick⟩]) (attempts s₀ a a) := by
  have hall : eventsOfAll [⟨a, .answered⟩, ⟨s₀, .tick⟩] =
      (Move.mk s₀ .tick).events ++ (a.answerOutcome s₀.source.next.1).events := by
    simp [eventsOfAll, harrives.events_eq]
  have hfetch : Quiet (Move.mk s₀ .tick).events := ⟨rfl, rfl⟩
  rw [hall]
  refine hfetch.append ?_
  unfold attempts
  rcases hanswer : s₀.source.next.1 with error | response
  · exact accountsFor_record rfl rfl rfl (reports_cycleFailed rfl (String.empty_append).symm)
  · rw [hanswer, closesFirst] at hcloses
    have hreceived : AccountsFor [.log (.answerReceived response)] [⟨.fetch, .success⟩] :=
      Quiet.accountsFor ⟨rfl, rfl⟩ (by simp)
    exact hreceived.append (accountsFor_reaction hcloses)

/-- What a cycle tells that has the tunnel closed first. -/
lemma Arrives.accountsFor_of_closes {done : Nat} (harrives : Arrives s₀ a)
    (hanswer : s₀.source.next.1 = .ok response) (hcloses : a.closesFor response = true)
    (hclosing : d.phase = .closing done response) :
    AccountsFor (eventsOfAll [⟨d, .closed⟩, ⟨a, .answered⟩, ⟨s₀, .tick⟩]) (attempts s₀ a d) := by
  have hbegun : AccountsFor ((Move.mk s₀ .tick).events ++ (Move.mk a .answered).events)
      [⟨.fetch, .success⟩] := by
    rw [harrives.events_eq, hanswer, answerOutcome, reactOutcome, if_pos hcloses]
    exact Quiet.accountsFor ⟨rfl, rfl⟩ (by simp)
  have hclosed : (Move.mk d .closed).events =
      d.world.control.closingRecords ++ d.dispatchEvents response := by
    simp [Move.events, eventsOf, hclosing, closeOutcome]
  have hall : eventsOfAll [⟨d, .closed⟩, ⟨a, .answered⟩, ⟨s₀, .tick⟩] =
      ((Move.mk s₀ .tick).events ++ (Move.mk a .answered).events) ++
        (d.world.control.closingRecords ++ d.dispatchEvents response) := by
    simp [eventsOfAll, hclosed]
  have hattempts : attempts s₀ a d = [⟨.fetch, .success⟩] ++
      ([⟨.tunnelClose, .ofResult id d.world.control.transport.tryClose.1⟩] ++
        dispatchAttempts d response) := by
    simp [attempts, hanswer, tunnelAttempts, hcloses, Ending.ofResult, Attempt.cuts,
      CycleStep.policy]
  rw [hall, hattempts]
  exact hbegun.append ((accountsFor_closing _).append (accountsFor_dispatch d response))

/-- The reaction cuts the cycle if it fails; closing never does. -/
lemma any_cuts_tunnelAttempts (a d : Service) (response : Response) :
    (tunnelAttempts a d response).any Attempt.cuts =
      (!a.closesFor response && !a.reacts response) := by
  unfold tunnelAttempts
  cases hcloses : a.closesFor response with
  | true => simp [Attempt.cuts, CycleStep.policy]
  | false =>
    cases hopens : a.opensFor response with
    | false => simp [reacts_eq, hopens]
    | true =>
      have hreaction : a.reaction response =
          a.world.control.openFor a.decrypt a.identity response.credentials response.port :=
        if_pos hopens
      rw [reacts, hreaction]
      obtain ⟨credentials, haccepted, hsuccess⟩ | ⟨error, hrejected, hends, hcuts, -⟩ :=
        credentials_cases a response
      · have huncut : (⟨.credentials, .success⟩ : Attempt).cuts = false := rfl
        obtain ⟨action, control, events, hopened, hsuccess', -⟩ |
          ⟨error, control, events, hopened, hcuts, -⟩ := opening_cases a haccepted
        · have huncut' : (⟨.tunnelOpen, .success⟩ : Attempt).cuts = false := rfl
          simp [hopened, hsuccess, hsuccess', huncut, huncut']
        · simp [hopened, hsuccess, huncut, hcuts]
      · have hopened : (a.world.control.openFor a.decrypt a.identity response.credentials
            response.port).1 = .error error := by
          rw [TunnelControl.openFor_eq, hrejected]
        simp [hopened, hends, hcuts]

/-- No step is attempted twice. -/
lemma nodup_attempts (s₀ a d : Service) : ((attempts s₀ a d).map Attempt.step).Nodup := by
  unfold attempts tunnelAttempts dispatchAttempts cadenceAttempts reconcileAttempts
  repeat' split
  all_goals simp

/-- Where an answer is dispatched, only its interval can be ignored. -/
lemma warnings_attempts (hanswer : s₀.source.next.1 = .ok response)
    (huncut : (tunnelAttempts a d response).any Attempt.cuts = false) :
    (attempts s₀ a d).flatMap Attempt.warnings =
      (d.cadenceAttempts response).flatMap Attempt.warnings := by
  have hresult : ∀ {ε α : Type} (step : CycleStep) (text : ε → String) (result : Except ε α),
      Attempt.warnings ⟨step, .ofResult text result⟩ = [] := by
    rintro ε α step text (error | value) <;> rfl
  have hcredentials : Attempt.warnings ⟨.credentials, a.credentialsEnding response⟩ = [] := by
    unfold credentialsEnding
    repeat' split
    all_goals rfl
  have hopening : Attempt.warnings ⟨.tunnelOpen, a.openingEnding response⟩ = [] := by
    unfold openingEnding
    split
    · rfl
    · exact hresult _ _ _
  have htunnel : (tunnelAttempts a d response).flatMap Attempt.warnings = [] := by
    unfold tunnelAttempts
    repeat' split
    all_goals simp [hresult, hcredentials, hopening]
  have hreconcile : (d.reconcileAttempts response).flatMap Attempt.warnings = [] := by
    unfold reconcileAttempts
    split <;> simp [hresult]
  simp [attempts, hanswer, huncut, dispatchAttempts, hresult, htunnel, hreconcile]

/-! ## Checks -/

/-- One check of the reaper, so far: its moves, the last one first, and the service after them.
Until it ends the reaper is closing the tunnel. -/
inductive InCheck (s₀ : Service) : List Move → Service → Prop
  | check {s : Service} (h : Step s₀ .check s) : InCheck s₀ [⟨s₀, .check⟩] s
  | cons {ms : List Move} {s s' : Service} {act : Act} (hc : InCheck s₀ ms s)
      (hbusy : s.reaper.isWatching = false) (h : Step s act s') : InCheck s₀ (⟨s, act⟩ :: ms) s'

/-- The moves of the reaper, the last one first. -/
def reaping (ms : List Move) : List Move := ms.filter (·.act.isReaping)

/-- The attempt of a check to close the tunnel, which comes to its end at `c`. -/
def checkAttempts (s₀ c : Service) : List Attempt :=
  if s₀.reaper.closesNow s₀.world then
    [⟨.tunnelClose, .ofResult id c.world.control.transport.tryClose.1⟩]
  else []

/-- The moves of a check, in which closing comes to its end at `c`. -/
def checkMoves (s₀ c : Service) : List Move :=
  if s₀.reaper.closesNow s₀.world then [⟨c, .reaperClosed⟩, ⟨s₀, .check⟩] else [⟨s₀, .check⟩]

/-- A check closes the tunnel or ends at once. -/
lemma InCheck.moves (hc : InCheck s₀ ms s) :
    ((∃ ticker done, s.reaper.phase = .closing ticker done) ∧
        s₀.reaper.closesNow s₀.world = true ∧ reaping ms = [⟨s₀, .check⟩]) ∨
      (s.reaper.isWatching = true ∧ ∃ c, reaping ms = checkMoves s₀ c) := by
  induction hc with
  | check h =>
    obtain ⟨ticker, hw⟩ : ∃ ticker, s₀.reaper.phase = .watching ticker := by
      cases h with
      | check hw hdue => exact ⟨_, hw⟩
    have hphase : (s₀.after .check).reaper.phase =
        s₀.reaper.phaseAfter s₀.world (ticker.tick s₀.world.nanos) := by
      simp [reaperAfter, hw]
    rw [h.eq_after]
    cases hcloses : s₀.reaper.closesNow s₀.world with
    | true =>
      rw [Reaper.phaseAfter, hcloses] at hphase
      exact .inl ⟨⟨_, _, hphase⟩, rfl, rfl⟩
    | false =>
      rw [Reaper.phaseAfter, hcloses] at hphase
      refine .inr ⟨Reaper.isWatching_iff.mpr ⟨_, hphase⟩, s₀, ?_⟩
      rw [checkMoves, hcloses]
      rfl
  | @cons ms s s' act hc hbusy h ih =>
    obtain ⟨⟨ticker, done, hclosing⟩, hcloses, hmoves⟩ | ⟨hwatching, -⟩ := ih
    · cases hact : act.isReaping with
      | false =>
        have hreaper : (s.after act).reaper = s.reaper := by
          cases act <;> first | rfl | cases hact
        rw [h.eq_after, hreaper]
        exact .inl ⟨⟨ticker, done, hclosing⟩, hcloses, by simpa [reaping, hact] using hmoves⟩
      | true =>
        -- a reaper that is closing can only come to the end of it
        obtain rfl : act = .reaperClosed := by
          cases h with
          | takeReport hw _ | check hw _ | leave hw _ =>
            rw [hclosing] at hw
            cases hw
          | reaperClosed _ _ => rfl
          | _ => cases hact
        rw [h.eq_after]
        refine .inr ⟨by simp [Reaper.isWatching, reaperAfter, hclosing], s, ?_⟩
        rw [checkMoves, if_pos hcloses, ← hmoves, reaping, reaping, List.filter_cons_of_pos rfl]
    · rw [hwatching] at hbusy
      cases hbusy

/-- A check tells whether closing failed, and nothing else. -/
lemma accountsFor_check (s₀ c : Service) :
    AccountsFor (eventsOfAll (checkMoves s₀ c)) (checkAttempts s₀ c) := by
  have hcheck : Quiet (Move.mk s₀ .check).events := by
    rw [Move.events, eventsOf, Reaper.checkEvents]
    repeat' split
    all_goals exact ⟨rfl, rfl⟩
  unfold checkMoves checkAttempts
  split
  · have hall : eventsOfAll [⟨c, .reaperClosed⟩, ⟨s₀, .check⟩] =
        (Move.mk s₀ .check).events ++ c.world.control.closingRecords := by
      simp [eventsOfAll, Move.events, eventsOf]
    rw [hall]
    exact hcheck.append (accountsFor_closing _)
  · have hall : eventsOfAll [⟨s₀, .check⟩] = (Move.mk s₀ .check).events := by
      simp [eventsOfAll]
    rw [hall]
    exact hcheck.accountsFor (by simp)

/-! ## Everything is reported, and nothing else -/

end Service

/-- What is reported of some attempts: every failure, and nothing else. -/
structure Reported (events : List Event) (attempts : List Attempt) : Prop where
  /-- Each failure gives one record of level ERROR, and a transport that refuses to open gives
  another one. -/
  count : (recordsAt .error events).length =
    attempts.countP Attempt.fails + if attempts.any Attempt.refusesOpening then 1 else 0
  /-- Each record belongs to the step that failed, and ends with what the collaborator said. -/
  told : List.Forall₂ LogRecord.Reports (recordsAt .error events)
    (attempts.flatMap Attempt.failures)
  /-- Without a failure there is no record. -/
  silent : (∀ attempt ∈ attempts, attempt.fails = false) → recordsAt .error events = []
  /-- A warning is given of an interval that is ignored, and of nothing else. -/
  warned : recordsAt .warn events = attempts.flatMap Attempt.warnings

/-- Each record belongs to a failure. -/
lemma exists_failure {records : List LogRecord} {failures : List Failure}
    (h : List.Forall₂ LogRecord.Reports records failures) {record : LogRecord}
    (hmem : record ∈ records) : ∃ failure ∈ failures, record.Reports failure := by
  induction h with
  | nil => cases hmem
  | cons hreports h ih =>
    rcases List.mem_cons.mp hmem with rfl | hmem
    · exact ⟨_, List.mem_cons_self, hreports⟩
    · obtain ⟨failure, hfailure, hrecord⟩ := ih hmem
      exact ⟨failure, List.mem_cons_of_mem _ hfailure, hrecord⟩

lemma length_flatMap_failures (attempts : List Attempt) :
    (attempts.flatMap Attempt.failures).length =
      attempts.countP Attempt.fails + attempts.countP Attempt.refusesOpening := by
  induction attempts with
  | nil => rfl
  | cons attempt attempts ih =>
    rw [List.flatMap_cons, List.length_append, ih, Attempt.length_failures, List.countP_cons,
      List.countP_cons]
    cases attempt.fails <;> cases attempt.refusesOpening <;> simp <;> omega

/-- Of attempts of different steps at most one is that of a transport that refuses to open. -/
lemma countP_refusesOpening {attempts : List Attempt} (hnodup : (attempts.map Attempt.step).Nodup) :
    attempts.countP Attempt.refusesOpening =
      if attempts.any Attempt.refusesOpening then 1 else 0 := by
  have hstep : ∀ attempt : Attempt, attempt.refusesOpening = true → attempt.step = .tunnelOpen := by
    rintro ⟨step, ending⟩ hrefuses
    cases step <;> first | rfl | cases hrefuses
  have hle : attempts.countP Attempt.refusesOpening ≤ 1 := by
    calc attempts.countP Attempt.refusesOpening
        ≤ attempts.countP ((· == CycleStep.tunnelOpen) ∘ Attempt.step) :=
          List.countP_mono_left fun attempt _ h => by simp [hstep attempt h]
      _ = (attempts.map Attempt.step).count .tunnelOpen := by rw [List.count, List.countP_map]
      _ ≤ 1 := List.nodup_iff_count_le_one.mp hnodup _
  split
  · next hany =>
    have hpos : 0 < attempts.countP Attempt.refusesOpening := by
      rw [List.countP_pos_iff]
      exact List.any_eq_true.mp hany
    omega
  · next hnone =>
    rw [List.countP_eq_zero]
    intro attempt hmem hrefuses
    exact hnone (List.any_eq_true.mpr ⟨attempt, hmem, hrefuses⟩)

/-- What accounts for attempts of different steps reports them. -/
lemma AccountsFor.reported {events : List Event} {attempts : List Attempt}
    (h : AccountsFor events attempts) (hnodup : (attempts.map Attempt.step).Nodup) :
    Reported events attempts := by
  constructor
  · rw [h.errors.length_eq, length_flatMap_failures, countP_refusesOpening hnodup]
  · exact h.errors
  · intro hnone
    have hfailures : attempts.flatMap Attempt.failures = [] := by
      rw [List.flatMap_eq_nil_iff]
      intro attempt hmem
      rw [List.eq_nil_iff_forall_not_mem]
      intro failure hfailure
      have hfails := (Attempt.step_of_mem_failures hfailure).1
      rw [hnone attempt hmem] at hfails
      cases hfails
    have herrors := h.errors
    rw [hfailures] at herrors
    exact List.forall₂_nil_right_iff.mp herrors
  · exact h.warnings

namespace Service

variable {s₀ s a d : Service} {ms : List Move} {response : Response}

/-- An interval that is another one but cannot be polled at is warned of if it is reached, and is
no failure. -/
lemma ignored_of_dispatched (hlawful : Lawful s₀ ms s a d)
    (haccounts : AccountsFor (eventsOfAll (polling ms)) (attempts s₀ a d))
    (hanswer : s₀.source.next.1 = .ok response)
    (hreached : .apply response.schedules ∈ calls (polling ms))
    (hother : response.checkin.sameNumber s₀.cadence.interval = false)
    (hunusable : validInterval response.checkin = false) :
    recordsAt .warn (eventsOfAll (polling ms)) = [.intervalIgnored response.checkin] ∧
      ∀ record ∈ recordsAt .error (eventsOfAll (polling ms)), record.step? ≠ some .cadence := by
  have hcadence : d.cadenceAttempts response = [⟨.cadence, .ignored response.checkin⟩] := by
    have hinterval : d.cadence.interval = s₀.cadence.interval := by
      rw [hlawful.kept.2]
      exact (ticked_spec s₀).1
    rw [cadenceAttempts, hinterval, hother, hunusable]
    rfl
  have huncut : (tunnelAttempts a d response).any Attempt.cuts = false := by
    rw [hlawful.calls] at hreached
    obtain ⟨_, hsame, -, hdispatched⟩ := apply_mem_iff.mp hreached
    obtain rfl := Except.ok.inj (hanswer.symm.trans hsame)
    rw [any_cuts_tunnelAttempts]
    rcases hdispatched with hcloses | hreacts
    · simp [hcloses]
    · simp [hreacts]
  constructor
  · rw [haccounts.warnings, warnings_attempts hanswer huncut, hcadence]
    rfl
  · intro record hrecord hstep
    obtain ⟨failure, hfailure, hreports, -⟩ := exists_failure haccounts.errors hrecord
    obtain ⟨attempt, hattempt, hmem⟩ := List.mem_flatMap.mp hfailure
    obtain ⟨hfails, hfailed⟩ := Attempt.step_of_mem_failures hmem
    have hignored : ⟨.cadence, .ignored response.checkin⟩ ∈ attempts s₀ a d := by
      simp [attempts, hanswer, huncut, dispatchAttempts, hcadence]
    have hsame : attempt.step = .cadence :=
      hfailed.symm.trans (Option.some.inj (hreports.symm.trans hstep))
    obtain rfl := List.inj_on_of_nodup_map (nodup_attempts s₀ a d) hattempt hignored hsame
    cases hfails

/-- What a cycle reports is what was attempted and failed. -/
lemma InCycle.accountsFor (hc : InCycle s₀ ms s) (hidle : s.busyUntil = none) :
    ∃ a d, Lawful s₀ ms s a d ∧
      AccountsFor (eventsOfAll (polling ms)) (attempts s₀ a d) := by
  cases hc.progress with
  | fetching harrives hmoves =>
    obtain ⟨done, hphase⟩ := harrives.phase
    rw [busyUntil, hphase] at hidle
    cases hidle
  | closing hanswer harrives hcloses hphase hcadence hmoves =>
    rw [busyUntil, hphase] at hidle
    cases hidle
  | endedAtOnce harrives hcloses hphase hcadence hmoves =>
    refine ⟨_, _, harrives.lawful hcloses hphase hcadence hmoves hc.armed_start hc.armed_eq, ?_⟩
    rw [hmoves]
    exact harrives.accountsFor hcloses
  | endedAfterClosing hanswer harrives hcloses hclosing hkept hphase hcadence hmoves =>
    refine ⟨_, _, harrives.lawful_of_closes hanswer hcloses hclosing hkept hphase hcadence hmoves
      hc.armed_eq, ?_⟩
    rw [hmoves]
    exact harrives.accountsFor_of_closes hanswer hcloses hclosing

/-- No failure is silent and none is invented.  Whatever fails, in whatever state a cycle or a
check of the reaper began and whatever happens meanwhile: what it reports at the levels ERROR and
WARN is what was attempted and failed. -/
theorem failures_reported :
    (∀ s₀ ms s, InCycle s₀ ms s → s.busyUntil = none → ∃ a d, Lawful s₀ ms s a d ∧
      Reported (eventsOfAll (polling ms)) (attempts s₀ a d) ∧
        ∀ response, s₀.source.next.1 = .ok response →
          .apply response.schedules ∈ calls (polling ms) →
          response.checkin.sameNumber s₀.cadence.interval = false →
          validInterval response.checkin = false →
          recordsAt .warn (eventsOfAll (polling ms)) = [.intervalIgnored response.checkin] ∧
            ∀ record ∈ recordsAt .error (eventsOfAll (polling ms)),
              record.step? ≠ some .cadence) ∧
    ∀ s₀ ms s, InCheck s₀ ms s → s.reaper.isWatching = true → ∃ c, reaping ms = checkMoves s₀ c ∧
      Reported (eventsOfAll (reaping ms)) (checkAttempts s₀ c) := by
  constructor
  · intro s₀ ms s hc hidle
    obtain ⟨a, d, hlawful, haccounts⟩ := hc.accountsFor hidle
    exact ⟨a, d, hlawful, haccounts.reported (nodup_attempts s₀ a d),
      fun _ => ignored_of_dispatched hlawful haccounts⟩
  · intro s₀ ms s hc hwatching
    obtain ⟨⟨ticker, done, hclosing⟩, -, -⟩ | ⟨-, c, hmoves⟩ := hc.moves
    · rw [Reaper.isWatching, hclosing] at hwatching
      cases hwatching
    · refine ⟨c, hmoves, ?_⟩
      rw [hmoves]
      refine (accountsFor_check s₀ c).reported ?_
      unfold checkAttempts
      split <;> simp

/-! ## A cycle and a check in which much fails -/

/-- As `failing`, but each answer asks for an infinite interval. -/
def failingForever : Setup :=
  { failing with
    source :=
      { fallback :=
          { status := .idle, checkin := ⟨0x7ff0000000000000⟩, stackTargets := some [] } } }

/-- Whether a cycle hands over no schedules for an answer that asks for an interval in vain. -/
def handsOverInVain (s₀ : Service) (ms : List Move) : Bool :=
  match s₀.source.next.1 with
  | .ok response =>
    response.schedules.isEmpty && !response.checkin.sameNumber s₀.cadence.interval &&
      !validInterval response.checkin &&
      (calls (polling ms)).any fun
        | .apply schedules => schedules.isEmpty
        | _ => false
  | .error _ => false

lemma apply_of_handsOverInVain (h : handsOverInVain s₀ ms = true) :
    ∃ response, s₀.source.next.1 = .ok response ∧
      .apply response.schedules ∈ calls (polling ms) ∧
        response.checkin.sameNumber s₀.cadence.interval = false ∧
          validInterval response.checkin = false := by
  unfold handsOverInVain at h
  rcases hanswer : s₀.source.next.1 with error | response
  · rw [hanswer] at h
    cases h
  · simp only [hanswer, Bool.and_eq_true, List.any_eq_true, List.isEmpty_iff, Bool.not_eq_true'] at h
    obtain ⟨⟨⟨hschedules, hother⟩, hunusable⟩, event, hmem, hevent⟩ := h
    refine ⟨response, rfl, ?_, hother, hunusable⟩
    cases event with
    | apply schedules =>
      rw [hschedules]
      exact List.isEmpty_iff.mp hevent ▸ hmem
    | _ => cases hevent

/-- In one cycle the tunnel cannot be closed, the scheduler and the reconciler fail, and an infinite
interval is ignored; in one check the tunnel cannot be closed. -/
theorem reported_in_order :
    (∃ s₀ ms s, InCycle s₀ ms s ∧ s.busyUntil = none ∧
      (recordsAt .error (eventsOfAll (polling ms))).map LogRecord.step? =
        [some .tunnelClose, some .schedule, some .stackReconcile] ∧
      ∃ a d, Reported (eventsOfAll (polling ms)) (attempts s₀ a d) ∧ ∃ response : Response,
        recordsAt .warn (eventsOfAll (polling ms)) = [.intervalIgnored response.checkin]) ∧
    ∃ s₀ ms s, InCheck s₀ ms s ∧ s.reaper.isWatching = true ∧
      (recordsAt .error (eventsOfAll (reaping ms))).map LogRecord.step? = [some .tunnelClose] ∧
      ∃ c, Reported (eventsOfAll (reaping ms)) (checkAttempts s₀ c) := by
  constructor
  · obtain ⟨-, -, s₀, -, -, h⟩ := exists_run {} failingForever {} [.start, .takeStart, .wait 5000]
      (fun _ _ s₀ => (perform s₀ [] [.tick, .answered, .reportActivity, .closed]).any
        fun (ms, s) => isCycle ms && decide (s.busyUntil = none) && handsOverInVain s₀ ms &&
          decide ((recordsAt .error (eventsOfAll (polling ms))).map LogRecord.step? =
            [some .tunnelClose, some .schedule, some .stackReconcile])) (by decide +kernel)
    obtain ⟨⟨ms, s⟩, hperform, h⟩ := (Option.any_eq_true _ _).mp h
    simp only [Bool.and_eq_true, decide_eq_true_eq] at h
    obtain ⟨⟨⟨hcycle, hidle⟩, hvain⟩, hsteps⟩ := h
    have hc := inCycle_of_run (run_of_perform .nil hperform) hcycle
    obtain ⟨response, hanswer, hreached, hother, hunusable⟩ := apply_of_handsOverInVain hvain
    obtain ⟨a, d, -, hreported, hignored⟩ := failures_reported.1 s₀ ms s hc hidle
    exact ⟨s₀, ms, s, hc, hidle, hsteps, a, d, hreported, response,
      (hignored response hanswer hreached hother hunusable).1⟩
  · obtain ⟨-, -, s₀, -, -, h⟩ := exists_run {} failing {}
      [.reportActivity, .takeReport, .wait 330000]
      (fun _ _ s₀ => s₀.can .check && !(s₀.after .check).reaper.isWatching &&
        (s₀.after .check).can .reaperClosed &&
          ((s₀.after .check).after .reaperClosed).reaper.isWatching &&
            decide ((recordsAt .error (eventsOfAll (reaping [⟨s₀.after .check, .reaperClosed⟩,
              ⟨s₀, .check⟩]))).map LogRecord.step? = [some .tunnelClose])) (by decide +kernel)
    simp only [Bool.and_eq_true, Bool.not_eq_true', decide_eq_true_eq] at h
    obtain ⟨⟨⟨⟨hcheck, hbusy⟩, hclosed⟩, hwatching⟩, hsteps⟩ := h
    have hc := (InCheck.check (step_iff.mpr ⟨hcheck, rfl⟩)).cons hbusy
      (step_iff.mpr ⟨hclosed, rfl⟩)
    obtain ⟨c, -, hreported⟩ := failures_reported.2 _ _ _ hc hwatching
    exact ⟨s₀, _, _, hc, hwatching, hsteps, c, hreported⟩

end Service

end CheckIn
