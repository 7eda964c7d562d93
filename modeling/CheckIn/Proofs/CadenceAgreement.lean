/-
# The interval, its ticker and the timeout of requests

Three values are kept apart and have to say the same: the interval in seconds, the period of the
ticker, and the time that a request may take.  They are changed only where an answer is
dispatched (`Move.cadence_after`), and there all at once or not at all.  So they agree after every
step, and what is in force can be told from the history alone: it is a fold over the cycles that
reached their dispatch (`inForce`).

A dispatch asks for another timeout exactly if its interval is a different number, can be polled
at, and leaves time before the end of the clock (`wantedTimeout_eq_some_iff`).  Whether the
scheduler or the reconciler fails in the same dispatch plays no part.
-/
import CheckIn.Proofs.Calls
import CheckIn.Proofs.Run

namespace CheckIn

/-- The three values agree. -/
structure Cadence.Agrees (cadence : Cadence) : Prop where
  interval : Duration.ofBinary64? cadence.interval = some cadence.timeout
  period : cadence.ticker.period = cadence.timeout.nanos

/-- The observer of the timeouts that are asked for. -/
def timeoutObserver : Observer Duration where
  see
    | .setTimeout timeout => some timeout
    | _ => none
  see_log _ := rfl

/-- The timeouts that are asked for by some events. -/
def timeoutCalls (events : List Event) : List Duration := timeoutObserver.seen events

lemma mem_timeoutCalls {timeout : Duration} {events : List Event} :
    timeout ∈ timeoutCalls events ↔ .setTimeout timeout ∈ events := by
  refine timeoutObserver.mem_seen_iff_mem fun other => ?_
  cases other <;> simp [timeoutObserver]

/-- An interval that can be polled at is a number. -/
lemma sameNumber_self_of_pollable {seconds : Binary64} {period : Duration}
    (h : pollable seconds = some period) : seconds.sameNumber seconds = true := by
  obtain ⟨hperiod, -⟩ := pollable_eq_some_iff.mp h
  refine Binary64.sameNumber_self ?_
  by_contra hnan
  have hfinite : seconds.isFinite = false := by
    simp only [Binary64.isNaN, Bool.not_eq_false, decide_eq_true_eq] at hnan
    simp [Binary64.isFinite, hnan.1]
  simp [Duration.ofBinary64?, hfinite] at hperiod

namespace Service

variable {s₀ s s' : Service} {act : Act} {ms past : List Move} {m m' : Move}

/-! ## The dispatch of an answer -/

/-- The answer that a move dispatches, if there is one: an answer that arrives and whose reaction
does not fail, or one for which the tunnel was closed first. -/
def Move.dispatched (m : Move) : Option Response :=
  match m.act, m.before.phase with
  | .answered, .fetching _ (.ok response) =>
    if m.before.closesFor response || !m.before.reacts response then none else some response
  | .closed, .closing _ response => some response
  | _, _ => none

/-- Of what is no request and no call of the transport, only dispatches are seen. -/
lemma seen_events_of_dispatched {α : Type} (observer : Observer α)
    (hfetch : ∀ timeout, observer.see (.fetch timeout) = none)
    (hopen : ∀ parameters, observer.see (.openTunnel parameters) = none)
    (hclose : observer.see .closeTunnel = none) (m : Move) :
    observer.seen m.events =
      match m.dispatched with
      | some response => observer.seen (m.before.dispatchEvents response)
      | none => [] := by
  obtain ⟨s, act⟩ := m
  rw [Move.events, seen_eventsOf]
  cases act with
  | tick => simp [Move.dispatched, hfetch]
  | answered =>
    cases hp : s.phase with
    | fetching done answer =>
      cases answer with
      | error code => simp [Move.dispatched, hp]
      | ok response =>
        simp only [Move.dispatched, hp, seen_answerOutcome, seen_reaction]
        cases s.closesFor response with
        | true => simp [hclose]
        | false =>
          cases s.opensFor response <;> cases s.accepted response <;>
            cases s.reacts response <;> simp [hopen]
    | _ => simp [Move.dispatched, hp]
  | closed =>
    cases hp : s.phase with
    | closing done response => simp [Move.dispatched, hp]
    | _ => simp [Move.dispatched, hp]
  | check =>
    cases s.reaper.closesNow s.world <;> simp [Move.dispatched, hclose]
  | _ => rfl

/-- Only a dispatch asks for another timeout. -/
theorem timeoutCalls_events (m : Move) :
    timeoutCalls m.events =
      match m.dispatched with
      | some response => (m.before.wantedTimeout response).toList
      | none => [] := by
  have hdispatch : ∀ response, timeoutObserver.seen (m.before.dispatchEvents response) =
      (m.before.wantedTimeout response).toList := by
    intro response
    rw [seen_dispatchEvents]
    cases m.before.wantedTimeout response <;> cases response.stackVersions <;> rfl
  have hseen := seen_events_of_dispatched timeoutObserver (fun _ => rfl) (fun _ => rfl) rfl m
  rw [timeoutCalls, hseen]
  cases m.dispatched with
  | none => rfl
  | some response => exact hdispatch response

/-- A move that dispatches an answer does all of the dispatch. -/
lemma mem_events_of_dispatched {response : Response} {event : Event}
    (h : m.dispatched = some response) (hmem : event ∈ m.before.dispatchEvents response) :
    event ∈ m.events := by
  obtain ⟨s, act⟩ := m
  simp only [Move.events] at hmem ⊢
  cases act with
  | answered =>
    cases hp : s.phase with
    | fetching done answer =>
      cases answer with
      | error code => simp [Move.dispatched, hp] at h
      | ok answer =>
        simp only [Move.dispatched, hp, Option.ite_none_left_eq_some, Bool.or_eq_true, not_or,
          Bool.not_eq_true, Bool.not_eq_false'] at h
        obtain ⟨⟨hcloses, hreacts⟩, hanswer⟩ := h
        obtain rfl := Option.some.inj hanswer
        unfold reacts at hreacts
        simp only [eventsOf, hp, answerOutcome, reactOutcome, hcloses]
        rcases hr : s.reaction answer with ⟨error | action, control, events⟩ <;> rw [hr] at hreacts
        · cases hreacts
        · simp [hmem]
    | _ => simp [Move.dispatched, hp] at h
  | closed =>
    cases hp : s.phase with
    | closing done answer =>
      simp only [Move.dispatched, hp, Option.some.injEq] at h
      subst h
      simp [eventsOf, hp, closeOutcome, hmem]
    | _ => simp [Move.dispatched, hp] at h
  | _ => simp [Move.dispatched] at h

/-- The dispatch of another interval that can be polled at tries to adopt it. -/
lemma intervalChanged_mem_dispatchEvents {response : Response} {period : Duration}
    (hother : response.checkin.sameNumber s.cadence.interval = false)
    (hpoll : pollable response.checkin = some period) :
    .log (.intervalChanged s.cadence.interval response.checkin) ∈ s.dispatchEvents response := by
  have hvalid : validInterval response.checkin = true := validInterval_iff.mpr ⟨period, hpoll⟩
  have hadoption : .log (.intervalChanged s.cadence.interval response.checkin) ∈
      (s.adoption response).2.2 := by
    simp [adoption, Dispatch.adoptInterval, Cadence.control, hother, hvalid]
  simp [dispatchEvents, hadoption]

/-- Whether a move takes a tick of the poll loop. -/
def Move.isTick (m : Move) : Bool :=
  match m.act with
  | .tick => true
  | _ => false

/-- The cadence changes with a dispatch; a tick only moves the next deadline on. -/
theorem Move.cadence_after (m : Move) :
    m.after.cadence =
      match m.dispatched with
      | some response => m.before.dispatchedCadence response
      | none =>
        if m.isTick then
          { m.before.cadence with
            ticker := m.before.cadence.ticker.tick m.before.world.nanos }
        else m.before.cadence := by
  obtain ⟨s, act⟩ := m
  have hafter : (Move.mk s act).after.cadence = s.cadenceAfter act := rfl
  rw [hafter]
  cases act with
  | answered =>
    cases hp : s.phase with
    | fetching done answer =>
      cases answer with
      | error code => simp [cadenceAfter, Move.dispatched, Move.isTick, hp, answerOutcome]
      | ok response =>
        simp only [cadenceAfter, Move.dispatched, Move.isTick, hp, cadence_answerOutcome]
        split <;> rfl
    | _ => simp [cadenceAfter, Move.dispatched, Move.isTick, hp]
  | closed =>
    cases hp : s.phase with
    | closing done response =>
      simp only [cadenceAfter, Move.dispatched, hp]
      exact adoption_cadence s response
    | _ => simp [cadenceAfter, Move.dispatched, Move.isTick, hp]
  | tick => simp only [cadenceAfter, Move.dispatched, Move.isTick, if_true]
  | _ => simp only [cadenceAfter, Move.dispatched, Move.isTick, if_false, Bool.false_eq_true]

/-! ## What is in force -/

/-- Whether a move asks for another timeout and the source accepts it. -/
def Move.accepts (m : Move) : Bool :=
  !(timeoutCalls m.events).isEmpty && m.before.timeoutRefusal.isNone

/-- The interval and the timeout in force, as the cycles of a run tell them. -/
def inForce (start : Binary64 × Duration) : List Move → Binary64 × Duration
  | [] => start
  | m :: past =>
    match m.dispatched with
    | none => inForce start past
    | some response =>
      match pollable response.checkin with
      | none => inForce start past
      | some period =>
        if !response.checkin.sameNumber (inForce start past).1 && m.accepts then
          (response.checkin, period)
        else inForce start past

/-- What is in force at the beginning of a run. -/
def initially (s₀ : Service) : Binary64 × Duration := (s₀.cadence.interval, s₀.cadence.timeout)

lemma accepts_of_dispatched {response : Response} (h : m.dispatched = some response) :
    m.accepts =
      ((m.before.wantedTimeout response).isSome && m.before.timeoutRefusal.isNone) := by
  have hcalls : timeoutCalls m.events = (m.before.wantedTimeout response).toList := by
    rw [timeoutCalls_events, h]
  rw [Move.accepts, hcalls]
  cases m.before.wantedTimeout response <;> rfl

/-- A move that adopts no interval leaves in force what was in force. -/
lemma inForce_cons_of_not_accepts {start : Binary64 × Duration} (h : m.accepts = false) :
    inForce start (m :: past) = inForce start past := by
  simp only [inForce, h, Bool.and_false]
  repeat' split
  all_goals first | rfl | contradiction

/-- Either an interval is adopted as a whole, or the cadence stays as it is. -/
lemma dispatchedCadence_cases (s : Service) (response : Response) :
    (∃ period, s.wantedTimeout response = some period ∧ s.timeoutRefusal = none ∧
        s.dispatchedCadence response =
          ⟨response.checkin, .every period.nanos s.world.nanos, period⟩) ∨
      (((s.wantedTimeout response).isSome && s.timeoutRefusal.isNone) = false ∧
        s.dispatchedCadence response = s.cadence) := by
  unfold dispatchedCadence
  cases s.wantedTimeout response with
  | none => exact .inr ⟨rfl, rfl⟩
  | some period =>
    cases s.timeoutRefusal with
    | none => exact .inl ⟨period, rfl, rfl, rfl⟩
    | some error => exact .inr ⟨rfl, rfl⟩

/-- The cadence is what the history says. -/
theorem Run.inForce_eq (hr : Run s₀ ms s) :
    inForce s₀.initially ms = (s.cadence.interval, s.cadence.timeout) := by
  induction hr with
  | nil => rfl
  | @cons ms s s' act hr h ih =>
    rw [h.eq_afterMove]
    cases hd : (Move.mk s act).dispatched with
    | none =>
      have hkeep : inForce s₀.initially (⟨s, act⟩ :: ms) = inForce s₀.initially ms := by
        rw [inForce, hd]
      rw [hkeep, ih, Move.cadence_after, hd]
      dsimp only
      split <;> rfl
    | some response =>
      have haccepts := accepts_of_dispatched hd
      have hnext : (Move.mk s act).after.cadence = s.dispatchedCadence response := by
        rw [Move.cadence_after, hd]
      rw [hnext]
      rcases dispatchedCadence_cases s response with
        ⟨period, hwanted, hrefusal, hnew⟩ | ⟨hkeep, hold⟩
      · -- the interval that the service compares with is the one in force
        obtain ⟨hother, hpoll, -⟩ := wantedTimeout_eq_some_iff.mp hwanted
        simp only [hwanted, hrefusal] at haccepts
        simp only [inForce, hd, hpoll, ih, hother, haccepts, hnew]
        rfl
      · rw [inForce_cons_of_not_accepts (haccepts.trans hkeep), ih, hold]

/-! ## Agreement -/

/-- A dispatch keeps the three values in agreement. -/
lemma dispatchedCadence_agrees (h : s.cadence.Agrees) (response : Response) :
    (s.dispatchedCadence response).Agrees := by
  rcases dispatchedCadence_cases s response with ⟨period, hwanted, -, hnew⟩ | ⟨-, hold⟩
  · obtain ⟨-, hpoll, -⟩ := wantedTimeout_eq_some_iff.mp hwanted
    rw [hnew]
    exact ⟨(pollable_eq_some_iff.mp hpoll).1, rfl⟩
  · rw [hold]
    exact h

/-- The three values agree in every service that is reached from one in which they do. -/
theorem Run.cadence_agrees (hr : Run s₀ ms s) (h₀ : s₀.cadence.Agrees) : s.cadence.Agrees := by
  refine hr.invariant (fun s => s.cadence.Agrees) h₀ ?_
  intro s act s' hagrees h
  rw [h.eq_afterMove, Move.cadence_after]
  split
  · exact dispatchedCadence_agrees hagrees _
  · split
    · exact ⟨hagrees.interval, (Ticker.period_tick _ _).trans hagrees.period⟩
    · exact hagrees

/-- The three values agree when a service is started with the timeout of its ticker. -/
lemma agrees_of_spawn {config : Config} {setup : Setup} {world : World}
    (hs : spawnWithSource config setup world = .ok s₀)
    (h₀ : s₀.cadence.timeout.nanos = s₀.cadence.ticker.period) : s₀.cadence.Agrees := by
  obtain ⟨period, hperiod, -, hcadence⟩ := exists_period_of_spawn hs
  rw [hcadence] at h₀ ⊢
  have htimeout : setup.timeout.getD config.pollFrequency = period := Duration.ext h₀
  exact ⟨htimeout ▸ hperiod, h₀.symm⟩

/-- The observer of requests. -/
def fetchObserver : Observer Duration where
  see
    | .fetch timeout => some timeout
    | _ => none
  see_log _ := rfl

lemma mem_fetches {timeout : Duration} {events : List Event} :
    timeout ∈ fetchObserver.seen events ↔ .fetch timeout ∈ events := by
  refine fetchObserver.mem_seen_iff_mem fun other => ?_
  cases other <;> simp [fetchObserver]

/-- A request is made with a tick, and may take the time that is in force. -/
lemma timeout_of_fetch {timeout : Duration} (h : .fetch timeout ∈ m.events) :
    m.act = .tick ∧ timeout = m.before.cadence.timeout := by
  obtain ⟨s, act⟩ := m
  have hseen : timeout ∈ fetchObserver.seen (s.eventsOf act) := mem_fetches.mpr h
  have hdispatch : ∀ response, fetchObserver.seen (s.dispatchEvents response) = [] := by
    intro response
    rw [seen_dispatchEvents]
    cases s.wantedTimeout response <;> cases response.stackVersions <;> rfl
  rw [seen_eventsOf] at hseen
  cases act with
  | tick => exact ⟨rfl, by simpa [fetchObserver] using hseen⟩
  | answered =>
    cases hp : s.phase with
    | fetching done answer =>
      cases answer with
      | error code => simp [hp] at hseen
      | ok response =>
        exfalso
        simp only [hp, seen_answerOutcome, seen_reaction, hdispatch] at hseen
        cases hc : s.closesFor response <;> cases ho : s.opensFor response <;>
          cases ha : s.accepted response <;> simp [hc, ho, ha, fetchObserver] at hseen
    | _ => simp [hp] at hseen
  | closed =>
    cases hp : s.phase with
    | closing done response => simp [hp, hdispatch] at hseen
    | _ => simp [hp] at hseen
  | check => cases hc : s.reaper.closesNow s.world <;> simp [hc, fetchObserver] at hseen
  | _ => simp at hseen

/-- A timeout is asked for where the interval of a dispatched answer differs from the one in
force, can be polled at, and ends before the clock does. -/
theorem Run.setTimeout_mem_iff (hr : Run s₀ ms s) (hm : m :: past <:+ ms) (timeout : Duration) :
    .setTimeout timeout ∈ m.events ↔ ∃ response, m.dispatched = some response ∧
      response.checkin.sameNumber (inForce s₀.initially past).1 = false ∧
      pollable response.checkin = some timeout ∧
      m.before.world.nanos + timeout.nanos ≤ m.before.clockEnd := by
  rw [← mem_timeoutCalls, timeoutCalls_events, (hr.of_suffix hm).1.inForce_eq]
  cases m.dispatched with
  | none => simp
  | some response => simp [wantedTimeout_eq_some_iff]

/-- Moves without a dispatch change nothing of what is in force. -/
lemma inForce_append_of_not_dispatched {start : Binary64 × Duration} {between : List Move}
    (h : ∀ m ∈ between, m.dispatched = none) :
    inForce start (between ++ past) = inForce start past := by
  induction between with
  | nil => rfl
  | cons m between ih =>
    rw [List.cons_append, inForce, h m List.mem_cons_self]
    exact ih fun m' hm' => h m' (List.mem_cons_of_mem m hm')

/-- Dispatches of the interval in force change nothing of what is in force. -/
lemma inForce_append_of_checkin_eq {start : Binary64 × Duration} {between : List Move}
    {checkin : Binary64} (hself : checkin.sameNumber checkin = true)
    (hpast : (inForce start past).1 = checkin)
    (h : ∀ m ∈ between, ∀ response, m.dispatched = some response → response.checkin = checkin) :
    inForce start (between ++ past) = inForce start past := by
  induction between with
  | nil => rfl
  | cons m between ih =>
    have hbetween := ih fun m' hm' => h m' (List.mem_cons_of_mem m hm')
    rw [List.cons_append, inForce, hbetween]
    cases hd : m.dispatched with
    | none => rfl
    | some response =>
      have hsame : response.checkin.sameNumber (inForce start past).1 = true := by
        rw [hpast, h m List.mem_cons_self response hd]
        exact hself
      simp only [hsame]
      split <;> simp

/-- After a timeout was refused, the next dispatch of the same interval tries it again, and asks
for the timeout again unless it would end after the clock. -/
theorem Run.asked_again {between : List Move} {response again : Response} {timeout : Duration}
    (hr : Run s₀ ms s) (hm : m :: past <:+ ms) (hm' : m' :: (between ++ m :: past) <:+ ms)
    (hd : m.dispatched = some response) (hask : .setTimeout timeout ∈ m.events)
    (hrefused : m.before.timeoutRefusal ≠ none) (hnone : ∀ b ∈ between, b.dispatched = none)
    (hd' : m'.dispatched = some again) (hsame : again.checkin = response.checkin) :
    .log (.intervalChanged m'.before.cadence.interval again.checkin) ∈ m'.events ∧
      (m'.before.world.nanos + timeout.nanos ≤ m'.before.clockEnd →
        .setTimeout timeout ∈ m'.events) := by
  obtain ⟨asked, hasked, hother, hpoll, -⟩ := (hr.setTimeout_mem_iff hm timeout).mp hask
  rw [hd] at hasked
  obtain rfl := Option.some.inj hasked
  have hnot : m.accepts = false := by
    rw [Move.accepts, Option.isNone_eq_false_iff.mpr (Option.isSome_iff_ne_none.mpr hrefused),
      Bool.and_false]
  -- neither the refused timeout nor what came in between changed what is in force
  have hforce : inForce s₀.initially (between ++ m :: past) = inForce s₀.initially past := by
    rw [inForce_append_of_not_dispatched hnone, inForce_cons_of_not_accepts hnot]
  have hinterval : m'.before.cadence.interval = (inForce s₀.initially past).1 := by
    rw [← hforce, (hr.of_suffix hm').1.inForce_eq]
  rw [← hsame] at hother hpoll
  constructor
  · refine mem_events_of_dispatched hd' (intervalChanged_mem_dispatchEvents ?_ hpoll)
    rw [hinterval]
    exact hother
  · intro hroom
    rw [hr.setTimeout_mem_iff hm', hforce]
    exact ⟨again, hd', hother, hpoll, hroom⟩

/-- A timeout that is accepted is not asked for again as long as the interval stays the same. -/
theorem Run.not_asked_again {between : List Move} {response : Response} {timeout : Duration}
    (hr : Run s₀ ms s) (hm : m :: past <:+ ms) (hm' : m' :: (between ++ m :: past) <:+ ms)
    (hd : m.dispatched = some response) (hask : .setTimeout timeout ∈ m.events)
    (haccepted : m.before.timeoutRefusal = none)
    (hsame : ∀ b ∈ m' :: between, ∀ again, b.dispatched = some again →
      again.checkin = response.checkin) (other : Duration) :
    .setTimeout other ∉ m'.events := by
  obtain ⟨asked, hasked, hother, hpoll, hroom⟩ := (hr.setTimeout_mem_iff hm timeout).mp hask
  rw [hd] at hasked
  obtain rfl := Option.some.inj hasked
  have hself : response.checkin.sameNumber response.checkin = true :=
    sameNumber_self_of_pollable hpoll
  have haccepts : m.accepts = true := by
    rw [Move.accepts, haccepted]
    have hmem := mem_timeoutCalls.mpr hask
    cases hcalls : timeoutCalls m.events with
    | nil => rw [hcalls] at hmem; cases hmem
    | cons call calls => rfl
  have hforce : (inForce s₀.initially (m :: past)).1 = response.checkin := by
    simp only [inForce, hd, hpoll, hother, haccepts]
    rfl
  rw [hr.setTimeout_mem_iff hm', inForce_append_of_checkin_eq hself hforce fun b hb =>
    hsame b (List.mem_cons_of_mem m' hb)]
  -- the interval would have to differ from itself
  rintro ⟨again, hd', hnew, -, -⟩
  rw [hforce, hsame m' List.mem_cons_self again hd', hself] at hnew
  cases hnew

/-- The interval, its ticker and the timeout of requests agree after every step, and each request
may take the time that the earlier cycles tell, whatever else fails in these.  A timeout that is
refused changes nothing, and the next dispatch of the same interval asks for it again; one that
is accepted is not asked for again, as long as the interval stays the same. -/
theorem Run.cadence_agreement {config : Config} {setup : Setup} {world : World}
    (hs : spawnWithSource config setup world = .ok s₀)
    (h₀ : s₀.cadence.timeout.nanos = s₀.cadence.ticker.period) (hr : Run s₀ ms s) :
    s.cadence.Agrees ∧ ∀ m past, m :: past <:+ ms →
      (∀ timeout, .fetch timeout ∈ m.events → timeout = (inForce s₀.initially past).2) ∧
      (∀ timeout, .setTimeout timeout ∈ m.events ↔ ∃ response, m.dispatched = some response ∧
        response.checkin.sameNumber (inForce s₀.initially past).1 = false ∧
        pollable response.checkin = some timeout ∧
        m.before.world.nanos + timeout.nanos ≤ m.before.clockEnd) ∧
      ∀ response timeout, m.dispatched = some response → .setTimeout timeout ∈ m.events →
        (m.before.timeoutRefusal ≠ none → m.after.cadence = m.before.cadence ∧
          ∀ m' between, m' :: (between ++ m :: past) <:+ ms →
            (∀ b ∈ between, b.dispatched = none) →
              ∀ again, m'.dispatched = some again → again.checkin = response.checkin →
                .log (.intervalChanged m'.before.cadence.interval again.checkin) ∈ m'.events ∧
                (m'.before.world.nanos + timeout.nanos ≤ m'.before.clockEnd →
                  .setTimeout timeout ∈ m'.events)) ∧
        (m.before.timeoutRefusal = none → m.after.cadence =
            ⟨response.checkin, .every timeout.nanos m.before.world.nanos, timeout⟩ ∧
          ∀ m' between, m' :: (between ++ m :: past) <:+ ms →
            (∀ b ∈ m' :: between, ∀ again, b.dispatched = some again →
              again.checkin = response.checkin) →
                ∀ timeout, .setTimeout timeout ∉ m'.events) := by
  refine ⟨hr.cadence_agrees (agrees_of_spawn hs h₀), fun m past hm => ⟨?_, ?_, ?_⟩⟩
  · intro timeout hfetch
    rw [(hr.of_suffix hm).1.inForce_eq]
    exact (timeout_of_fetch hfetch).2
  · exact hr.setTimeout_mem_iff hm
  · intro response timeout hd hask
    have hwanted : m.before.wantedTimeout response = some timeout := by
      have hmem := mem_timeoutCalls.mpr hask
      rw [timeoutCalls_events, hd] at hmem
      simpa using hmem
    have hcadence : m.after.cadence = m.before.dispatchedCadence response := by
      rw [Move.cadence_after, hd]
    refine ⟨fun hrefused => ⟨?_, ?_⟩, fun haccepted => ⟨?_, ?_⟩⟩
    · obtain ⟨error, hrefusal⟩ := Option.ne_none_iff_exists'.mp hrefused
      rw [hcadence, dispatchedCadence, hwanted, hrefusal]
    · intro m' between hm' hnone again hd' hsame
      exact hr.asked_again hm hm' hd hask hrefused hnone hd' hsame
    · rw [hcadence, dispatchedCadence, hwanted, haccepted]
    · intro m' between hm' hsame other
      exact hr.not_asked_again hm hm' hd hask haccepted hsame other

/-- Every answer asks for an interval of seven seconds. -/
def slower : Setup where
  source := { fallback := { checkin := .ofNat 7 } }
  clockEnd := 1000000 * nanosPerSecond

/-- Three cycles; in the first one the timeout is refused. -/
def refusedOnce : List Act :=
  [.start, .takeStart, .outside (.timeoutRefusal (some (.status 500))), .wait 5000, .tick,
    .answered, .outside (.timeoutRefusal none), .wait 10000, .tick, .answered, .wait 17000, .tick,
    .answered]

/-- The timeout is asked for in the first two of three cycles. -/
theorem asked_twice : ∃ s₀ ms s, spawnWithSource {} slower {} = .ok s₀ ∧
    s₀.cadence.timeout.nanos = s₀.cadence.ticker.period ∧ Run s₀ ms s ∧
      ms.map (fun m => (m.instant, timeoutCalls m.events)) =
        [(17000, []), (17000, []), (10000, []), (10000, [.ofSeconds 7]), (10000, []), (5000, []),
          (5000, []), (5000, [.ofSeconds 7]), (5000, []), (0, []), (0, []), (0, []), (0, [])] ∧
      s.cadence.timeout = .ofSeconds 7 ∧ s.cadence.Agrees ∧
      ∀ m past, m :: past <:+ ms → ∀ timeout, .fetch timeout ∈ m.events →
        timeout = (inForce s₀.initially past).2 := by
  obtain ⟨s₀, ms, s, hs, hr, h⟩ := exists_run {} slower {} refusedOnce
    (fun s₀ ms s => decide (s₀.cadence.timeout.nanos = s₀.cadence.ticker.period) &&
      decide (ms.map (fun m => (m.instant, timeoutCalls m.events)) =
        [(17000, []), (17000, []), (10000, []), (10000, [.ofSeconds 7]), (10000, []), (5000, []),
          (5000, []), (5000, [.ofSeconds 7]), (5000, []), (0, []), (0, []), (0, []), (0, [])]) &&
      decide (s.cadence.timeout = .ofSeconds 7)) (by decide +kernel)
  simp only [Bool.and_eq_true, decide_eq_true_eq] at h
  obtain ⟨⟨h₀, hcalls⟩, htimeout⟩ := h
  obtain ⟨hagrees, hhistory⟩ := Run.cadence_agreement hs h₀ hr
  exact ⟨s₀, ms, s, hs, h₀, hr, hcalls, htimeout, hagrees,
    fun m past hm => (hhistory m past hm).1⟩

end Service

end CheckIn
