/-
# When requests are made

The instants of the requests follow one recursion.  There is a deadline, at first one period after
the start.  A request is made at the first instant from the deadline on at which the last command
was to start and nothing has told the loops to end.  With the cycle the deadline moves on
(`schedule`): to one period after the request if a new period was adopted, which is then in force,
or if the request was late; otherwise to one period after the old deadline.

Whether the cycle failed plays no part, and neither does what happened between the cycles: the
ticker keeps its deadline while the poll loop is disarmed (`Scheduled`).  That the requests of a
run are exactly those of the recursion needs that nothing is late, that answers and closings take
no time, and that no two commands share an instant (`Run.fetch_timing`).
-/
import CheckIn.Proofs.Arming
import Mathlib.Order.Bounds.Defs

namespace CheckIn

namespace Service

variable {s₀ s s' : Service} {act : Act} {ms past : List Move} {m : Move}

/-! ## Cycles -/

/-- Whether a move makes a request. -/
def Move.fetches (m : Move) : Bool := !(fetchObserver.seen m.events).isEmpty

/-- The period that a move adopts, if it does: the timeout that it asks for and gets. -/
def Move.adopts (m : Move) : Option Duration :=
  if m.before.timeoutRefusal.isNone then (timeoutCalls m.events).head? else none

/-- A cycle, as it is seen from outside. -/
structure Cycle where
  /-- When the request was made, in milliseconds. -/
  instant : Nat
  /-- The period that was adopted. -/
  adopted : Option Duration := none
deriving DecidableEq

/-- The cycles of a history, the last one first. -/
def cycles : List Move → List Cycle
  | [] => []
  | m :: past =>
    if m.fetches then ⟨m.instant, none⟩ :: cycles past
    else
      match m.adopts, cycles past with
      | some period, cycle :: earlier => { cycle with adopted := some period } :: earlier
      | _, cycles => cycles

/-- The next deadline and the period in force after some cycles. -/
def schedule (start : Ticker) : List Cycle → Ticker
  | [] => start
  | cycle :: earlier =>
    let ⟨deadline, period⟩ := schedule start earlier
    let now := cycle.instant * nanosPerMilli
    match cycle.adopted with
    | some adopted => ⟨now + adopted.nanos, adopted.nanos⟩
    | none =>
      if now ≤ deadline + Ticker.tolerance then ⟨deadline + period, period⟩
      else ⟨now + period, period⟩

/-- After a cycle the next deadline is one period later, but for what a request may be late. -/
lemma schedule_spacing (start : Ticker) (cycle : Cycle) (earlier : List Cycle) :
    cycle.instant * nanosPerMilli + (schedule start (cycle :: earlier)).period ≤
      (schedule start (cycle :: earlier)).deadline + Ticker.tolerance := by
  simp only [schedule]
  cases cycle.adopted with
  | some adopted => exact Nat.le_add_right _ _
  | none =>
    by_cases hintime : cycle.instant * nanosPerMilli ≤
        (schedule start earlier).deadline + Ticker.tolerance
    · simp only [if_pos hintime]
      omega
    · simp only [if_neg hintime]
      exact Nat.le_add_right _ _

lemma Move.act_eq_tick (htick : m.isTick = true) : m.act = .tick := by
  cases hact : m.act with
  | tick => rfl
  | _ =>
    rw [Move.isTick, hact] at htick
    cases htick

/-- A request is made with a tick. -/
lemma Move.fetches_eq_isTick (m : Move) : m.fetches = m.isTick := by
  cases htick : m.isTick with
  | true =>
    simp [Move.fetches, Move.events, Move.act_eq_tick htick, eventsOf, fetchObserver]
  | false =>
    rw [Move.fetches, Bool.not_eq_false', List.isEmpty_iff]
    by_contra hseen
    obtain ⟨timeout, hmem⟩ := List.exists_mem_of_ne_nil _ hseen
    rw [Move.isTick, (timeout_of_fetch (mem_fetches.mp hmem)).1] at htick
    cases htick

/-- Only a dispatch adopts a period. -/
lemma Move.adopts_eq_none (hd : m.dispatched = none) : m.adopts = none := by
  have hcalls := timeoutCalls_events m
  rw [hd] at hcalls
  simp [Move.adopts, hcalls]

/-- A period that is adopted is that of an answer, and can be polled at. -/
lemma Move.exists_of_adopts {period : Duration} (hadopts : m.adopts = some period) :
    ∃ response, m.dispatched = some response ∧ pollable response.checkin = some period := by
  have hcalls := timeoutCalls_events m
  cases hd : m.dispatched with
  | none =>
    rw [Move.adopts_eq_none hd] at hadopts
    cases hadopts
  | some response =>
    rw [hd] at hcalls
    have hmem : period ∈ (m.before.wantedTimeout response).toList := by
      unfold Move.adopts at hadopts
      split at hadopts
      · dsimp only at hcalls
        rw [← hcalls]
        exact List.mem_of_head? hadopts
      · cases hadopts
    obtain ⟨-, hpoll, -⟩ := wantedTimeout_eq_some_iff.mp (Option.mem_toList.mp hmem)
    exact ⟨response, rfl, hpoll⟩

/-- A dispatch is no tick: it ends a cycle that was begun. -/
lemma Move.of_dispatched {response : Response} (hd : m.dispatched = some response) :
    m.isTick = false ∧ m.before.busyUntil.isSome = true ∧ m.after.busyUntil = none := by
  obtain ⟨s, act⟩ := m
  have hphase : ∀ act, (Move.mk s act).after.phase = s.phaseAfter act := fun _ => rfl
  cases act with
  | answered =>
    cases hp : s.phase with
    | fetching done answer =>
      cases answer with
      | error code => simp [Move.dispatched, hp] at hd
      | ok answer =>
        simp only [Move.dispatched, hp, Option.ite_none_left_eq_some, Bool.or_eq_true, not_or,
          Bool.not_eq_true, Bool.not_eq_false'] at hd
        have hwaiting : (Move.mk s .answered).after.phase = .waiting := by
          rw [hphase]
          simp [phaseAfter, hp, phase_answerOutcome, hd.1.1]
        exact ⟨rfl, by simp [busyUntil, hp], by simp [busyUntil, hwaiting]⟩
    | _ => simp [Move.dispatched, hp] at hd
  | closed =>
    cases hp : s.phase with
    | closing done answer => exact ⟨rfl, by simp [busyUntil, hp], rfl⟩
    | _ => simp [Move.dispatched, hp] at hd
  | _ => simp [Move.dispatched] at hd

lemma Move.dispatched_eq_none (htick : m.isTick = true) : m.dispatched = none := by
  cases hd : m.dispatched with
  | none => rfl
  | some response =>
    rw [(Move.of_dispatched hd).1] at htick
    cases htick

/-- The ticker begins anew with a period that is adopted; else only a tick moves it on. -/
lemma Move.ticker_after (m : Move) :
    m.after.cadence.ticker =
      match m.adopts with
      | some period => .every period.nanos m.before.world.nanos
      | none =>
        if m.isTick then m.before.cadence.ticker.tick m.before.world.nanos
        else m.before.cadence.ticker := by
  rw [Move.cadence_after]
  cases hd : m.dispatched with
  | none =>
    rw [Move.adopts_eq_none hd]
    dsimp only
    split <;> rfl
  | some response =>
    have hcalls := timeoutCalls_events m
    rw [hd] at hcalls
    dsimp only at hcalls ⊢
    rcases dispatchedCadence_cases m.before response with
      ⟨period, hwanted, hrefusal, hnew⟩ | ⟨hkeep, hold⟩
    · have hadopts : m.adopts = some period := by
        rw [Move.adopts, hcalls, hwanted, hrefusal]
        rfl
      rw [hadopts, hnew]
    · have hadopts : m.adopts = none := by
        rw [Move.adopts, hcalls]
        cases hwanted : m.before.wantedTimeout response with
        | none => simp
        | some period =>
          rw [hwanted, Option.isSome_some, Bool.true_and] at hkeep
          rw [hkeep]
          rfl
      rw [hadopts, hold, (Move.of_dispatched hd).1]
      rfl

/-- The move that adopts a period does so for the last cycle. -/
lemma cycles_of_adopts {period : Duration} {cycle : Cycle} {earlier : List Cycle}
    (hadopts : m.adopts = some period) (hcycles : cycles past = cycle :: earlier) :
    cycles (m :: past) = { cycle with adopted := some period } :: earlier := by
  have hfetches : m.fetches = false := by
    obtain ⟨response, hd, -⟩ := Move.exists_of_adopts hadopts
    exact m.fetches_eq_isTick.trans (Move.of_dispatched hd).1
  simp [cycles, hfetches, hadopts, hcycles]

lemma cycles_of_tick (htick : m.isTick = true) :
    cycles (m :: past) = ⟨m.instant, none⟩ :: cycles past := by
  rw [cycles, if_pos (m.fetches_eq_isTick.trans htick)]

lemma cycles_of_neither (htick : m.isTick = false) (hadopts : m.adopts = none) :
    cycles (m :: past) = cycles past := by
  simp [cycles, m.fetches_eq_isTick.trans htick, hadopts]

/-! ## Ready for requests -/

/-- Whether requests are to be made at an instant: the last command was to start, and nothing has
told the loops to end. -/
def readyAt (ms : List Move) (instant : Nat) : Bool :=
  armedAt ms instant && !shutDownAt ms instant

lemma readyAt_cons_of_lt {instant : Nat} (h : instant < m.instant) :
    readyAt (m :: ms) instant = readyAt ms instant := by
  rw [readyAt, armedAt_cons_of_lt h, shutDownAt_cons_of_lt h]
  rfl

/-- Only commands make a difference. -/
lemma readyAt_cons_of_silent (hcommand : m.command = none) (hcancels : m.cancels = false)
    (instant : Nat) : readyAt (m :: ms) instant = readyAt ms instant := by
  simp [readyAt, armedAt, shutDownAt, hcommand, hcancels]

/-- A poll loop that has nothing to do is not ready, or its deadline has not come. -/
lemma Commanded.readyAt_of_idle {instant : Nat} (hc : Commanded ms s) (ho : OnTime s)
    (hmoves : s.pollMoves = []) (hle : ∀ m ∈ ms, m.instant ≤ s.world.now)
    (hnow : s.world.now ≤ instant)
    (hwake : instant = s.world.now ∨ ∀ wake, s.pollWake = some wake → instant < wake)
    (hdeadline : s.cadence.ticker.deadline ≤ instant * nanosPerMilli) :
    readyAt ms instant = false := by
  have hle' : ∀ m ∈ ms, m.instant ≤ instant := fun m hm => Nat.le_trans (hle m hm) hnow
  rw [readyAt, armedAt_of_le hle', shutDownAt_of_le hle']
  rcases hc.idle ho hmoves with hstopped | hended | ⟨hpoll, hdue⟩
  · rw [hstopped, Bool.false_and]
  · rw [hended, Bool.not_true, Bool.and_false]
  · -- the deadline has not come yet
    exfalso
    have hdue' := (Ticker.isDue_iff _ _).mpr hdeadline
    rcases hwake with rfl | hwake
    · exact absurd (hdue.symm.trans hdue') Bool.false_ne_true
    · have hlt := hwake _ hpoll
      simp only [Ticker.isDue, decide_eq_true_eq] at hdue'
      omega

/-- Where a tick is taken, the last command was to start. -/
lemma Commanded.readyAt_of_tick (hc : Commanded ms s) (h : Step s .tick s')
    (hle : ∀ m ∈ ms, m.instant ≤ s.world.now) (hapart : CommandsApart (⟨s, .tick⟩ :: ms)) :
    readyAt ms s.world.now = true := by
  cases h with
  | tick hw ha hdue =>
    have hended : s.pollEnded = false := pollEnded_eq_false (by simp [hw])
    -- a command to stop or to end that is still to be taken would be of this instant
    have hnone : ∀ m ∈ ms, m.instant = s.world.now →
        m.command ≠ some false ∧ m.cancels = false := by
      intro m hm hnow
      have hapart' := mt (hapart.instant_ne hm) (not_not_intro hnow.symm)
      have htick : (Move.mk s .tick).isTick = true := rfl
      simp only [Move.conflicts, htick, Bool.true_and, Bool.or_eq_true, not_or] at hapart'
      simpa using hapart'.1.2
    have hrunning : ms.any Move.cancels = false := by
      rw [← hc.cancelled]
      by_contra hcancelled
      obtain ⟨m, hm, hcancels, hnow⟩ := hc.cancelledNow (by simpa using hcancelled) hended
      rw [(hnone m hm hnow).2] at hcancels
      cases hcancels
    have hstop : s.stopPending = false := by
      by_contra hstop
      obtain ⟨-, m, hm, hcommand, hnow⟩ := hc.stop hended (by simpa using hstop)
      exact (hnone m hm hnow).1 hcommand
    have hlast : (lastCommand ms).getD false = true := by
      cases hstart : s.startPending with
      | true =>
        rw [(hc.start hended hstart).1]
        rfl
      | false => exact (hc.taken hended hstart hstop).symm.trans ha
    rw [readyAt, armedAt_of_le hle, shutDownAt_of_le hle, hlast, hrunning]
    rfl

/-! ## The recursion -/

/-- The ticker keeps to the schedule, and no request has been missed. -/
structure Scheduled (start : Ticker) (ms : List Move) (s : Service) : Prop where
  ticker : s.cadence.ticker = schedule start (cycles ms)
  /-- A cycle that has begun has begun just now. -/
  busy : s.busyUntil.isSome = true → ∃ earlier, cycles ms = ⟨s.world.now, none⟩ :: earlier
  missed : ∀ instant < s.world.now,
    s.cadence.ticker.deadline ≤ instant * nanosPerMilli → readyAt ms instant = false

variable {start : Ticker}

lemma Scheduled.ticker_after (hk : Scheduled start ms s) (act : Act) :
    (s.after act).cadence.ticker = schedule start (cycles (⟨s, act⟩ :: ms)) := by
  have hafter := Move.ticker_after ⟨s, act⟩
  refine hafter.trans ?_
  cases hadopts : (Move.mk s act).adopts with
  | some period =>
    obtain ⟨response, hd, -⟩ := Move.exists_of_adopts hadopts
    obtain ⟨earlier, hcycles⟩ := hk.busy (Move.of_dispatched hd).2.1
    rw [cycles_of_adopts hadopts hcycles]
    rfl
  | none =>
    cases htick : (Move.mk s act).isTick with
    | false =>
      rw [cycles_of_neither htick hadopts]
      exact hk.ticker
    | true =>
      have hnow : s.world.nanos = s.world.now * nanosPerMilli := rfl
      rw [cycles_of_tick htick]
      simp only [if_true, schedule, ← hk.ticker, Ticker.tick, Move.instant, hnow]
      by_cases hlate : s.cadence.ticker.deadline + Ticker.tolerance <
          s.world.now * nanosPerMilli
      · rw [if_pos hlate, if_neg (Nat.not_le_of_lt hlate)]
      · rw [if_neg hlate, if_pos (Nat.le_of_not_lt hlate)]

/-- The poll loop becomes busy with a tick, and stays busy only while nothing is adopted. -/
lemma busy_after (hbusy : (s.after act).busyUntil.isSome = true) :
    (Move.mk s act).isTick = true ∨
      s.busyUntil.isSome = true ∧ (Move.mk s act).isTick = false ∧
        (Move.mk s act).adopts = none := by
  have hadopts : (Move.mk s act).adopts = none := by
    cases hd : (Move.mk s act).dispatched with
    | none => exact Move.adopts_eq_none hd
    | some response =>
      have hidle : (s.after act).busyUntil = none := (Move.of_dispatched hd).2.2
      rw [hidle] at hbusy
      cases hbusy
  cases act with
  | tick => exact .inl rfl
  | answered =>
    refine .inr ⟨?_, rfl, hadopts⟩
    cases hp : s.phase with
    | waiting | ended =>
      have hsame : (s.after .answered).phase = s.phase := by simp [phaseAfter, hp]
      rw [busyUntil, hsame, hp] at hbusy
      cases hbusy
    | fetching | closing =>
      rw [busyUntil, hp]
      rfl
  | closed | endPolling => cases hbusy
  | _ => exact .inr ⟨hbusy, rfl, hadopts⟩

/-- The deadline only moves on. -/
lemma deadline_after (s : Service) (act : Act) :
    s.world.nanos ≤ (s.after act).cadence.ticker.deadline ∨
      s.cadence.ticker.deadline ≤ (s.after act).cadence.ticker.deadline := by
  have hafter : (s.after act).cadence.ticker = _ := Move.ticker_after ⟨s, act⟩
  rw [hafter]
  cases (Move.mk s act).adopts with
  | some period => exact .inl (Nat.le_add_right _ _)
  | none =>
    right
    dsimp only
    split
    · have htick := s.cadence.ticker.deadline_add_period_le_tick s.world.nanos
      omega
    · exact Nat.le_refl _

/-- While nothing is late, a cycle that has begun has begun just now. -/
lemma exists_cycles_of_busy (ho : OnTime s) (h : Step s act s') (hp : Prompt (⟨s, act⟩ :: ms))
    (hbefore : s.busyUntil.isSome = true → ∃ earlier, cycles ms = ⟨s.world.now, none⟩ :: earlier)
    (hbusy : s'.busyUntil.isSome = true) :
    ∃ earlier, cycles (⟨s, act⟩ :: ms) = ⟨s'.world.now, none⟩ :: earlier := by
  obtain rfl := h.eq_after
  rcases busy_after hbusy with htick | ⟨hbusy', htick, hadopts⟩
  · rw [cycles_of_tick htick]
    cases act with
    | tick => exact ⟨_, rfl⟩
    | _ => cases htick
  · obtain ⟨earlier, hcycles⟩ := hbefore hbusy'
    rw [cycles_of_neither htick hadopts, hcycles]
    refine ⟨earlier, ?_⟩
    cases act with
    | wait later =>
      -- time does not pass while the poll loop is busy
      have hidle : (s.after (.wait later)).busyUntil = none :=
        ho.busyUntil_eq_none hp.pollMoves_eq_nil
      rw [hidle] at hbusy
      cases hbusy
    | _ => rfl

/-- Every step keeps to the schedule. -/
lemma Scheduled.step (hk : Scheduled start ms s) (hc : Commanded ms s) (ho : OnTime s)
    (h : Step s act s') (hp : Prompt (⟨s, act⟩ :: ms)) (hle : ∀ m ∈ ms, m.instant ≤ s.world.now) :
    Scheduled start (⟨s, act⟩ :: ms) s' := by
  have hticker := hk.ticker_after act
  have hbusy := exists_cycles_of_busy ho h hp hk.busy
  obtain rfl := h.eq_after
  refine ⟨hticker, hbusy, ?_⟩
  · intro instant hinstant hdeadline
    -- what was missed before this move, or while time passed with it
    by_cases hpast : instant < s.world.now
    · have hsame : readyAt (⟨s, act⟩ :: ms) instant = readyAt ms instant := readyAt_cons_of_lt hpast
      rw [hsame]
      refine hk.missed instant hpast ?_
      rcases deadline_after s act with hnew | hlater
      · have hlt : instant * nanosPerMilli < s.world.nanos :=
          Nat.mul_lt_mul_of_pos_right hpast (by decide)
        omega
      · exact Nat.le_trans hlater hdeadline
    · cases act with
      | wait later =>
        rw [readyAt_cons_of_silent rfl rfl]
        refine hc.readyAt_of_idle ho hp.pollMoves_eq_nil hle (Nat.le_of_not_lt hpast) (.inr ?_)
          hdeadline
        intro wake hwake
        exact Nat.lt_of_lt_of_le hinstant (hp.le_wake.1 wake hwake)
      | _ => exact absurd hinstant hpast

/-- In a run in which nothing takes time and nothing is late, and no two commands share an
instant, the ticker keeps to the schedule. -/
theorem Run.scheduled {config : Config} {setup : Setup} {world : World}
    (hs : spawnWithSource config setup world = .ok s₀) (hr : Run s₀ ms s) (hp : Prompt ms)
    (hd : Undelayed ms) (hapart : CommandsApart ms) : Scheduled s₀.cadence.ticker ms s := by
  induction hr with
  | nil =>
    obtain ⟨cadence, -, rfl⟩ := exists_cadence_of_spawn hs
    refine ⟨rfl, ?_, fun _ _ _ => rfl⟩
    intro hbusy
    cases hbusy
  | cons hr h ih =>
    have hc := hr.commanded hs hp.of_cons hd.of_cons hapart.of_cons
    have ho := hr.onTime hs hp.of_cons hd.of_cons
    exact (ih hp.of_cons hd.of_cons hapart.of_cons).step hc ho h hp
      fun m hm => (hr.instant_bounds hm).2

/-- A tick is taken at the first instant at which a request is to be made. -/
lemma Scheduled.isLeast (hk : Scheduled start ms s) (hc : Commanded ms s) (h : Step s .tick s')
    (hle : ∀ m ∈ ms, m.instant ≤ s.world.now) (hapart : CommandsApart (⟨s, .tick⟩ :: ms)) :
    IsLeast {instant | s.cadence.ticker.deadline ≤ instant * nanosPerMilli ∧
      readyAt ms instant = true} s.world.now := by
  have hready := hc.readyAt_of_tick h hle hapart
  cases h with
  | tick hw ha hdue =>
    refine ⟨⟨(Ticker.isDue_iff _ _).mp hdue, hready⟩, ?_⟩
    -- at an earlier instant a request would have been missed
    rintro instant ⟨hdeadline, hready'⟩
    by_contra hbefore
    have hmissed := hk.missed instant (Nat.lt_of_not_le hbefore) hdeadline
    exact absurd (hmissed.symm.trans hready') Bool.false_ne_true

/-- Between two requests lies one period, but for what the first one may be late. -/
lemma schedule_spacing_of_le {cycle : Cycle} {earlier : List Cycle} {instant : Nat}
    (h : (schedule start (cycle :: earlier)).deadline ≤ instant * nanosPerMilli) :
    cycle.instant * nanosPerMilli + (schedule start (cycle :: earlier)).period ≤
        instant * nanosPerMilli + Ticker.tolerance ∧
      (Ticker.tolerance < (schedule start (cycle :: earlier)).period →
        cycle.instant < instant) := by
  have hspacing := schedule_spacing start cycle earlier
  refine ⟨Nat.le_trans hspacing (Nat.add_le_add_right h _), fun hlong => ?_⟩
  have hlt : cycle.instant * nanosPerMilli < instant * nanosPerMilli := by omega
  exact Nat.lt_of_mul_lt_mul_right hlt

/-- The next deadline and the period in force after a history, if polling began at an instant in
nanoseconds. -/
def planned (start : Nat) (period : Duration) (ms : List Move) : Ticker :=
  schedule (.every period.nanos start) (cycles ms)

/-- A request is made exactly at the first instant from the deadline on at which the last command
was to start and nothing has told the loops to end, where the deadline is that of the recursion
over the earlier cycles.  So the next request is not earlier than one period after this one, but
for what this one was late, and not at the same instant if the period is longer than that. -/
theorem Run.fetch_timing {config : Config} {setup : Setup} {world : World}
    (hs : spawnWithSource config setup world = .ok s₀) (hr : Run s₀ ms s) (hp : Prompt ms)
    (hd : Undelayed ms) (hapart : CommandsApart ms) :
    ∃ period, Duration.ofBinary64? config.pollFrequency.toBinary64 = some period ∧
      0 < period.nanos ∧
      (∀ m past, m :: past <:+ ms → m.fetches = true →
        IsLeast {instant | (planned world.nanos period past).deadline ≤ instant * nanosPerMilli ∧
          readyAt past instant = true} m.instant ∧
        ∀ last earlier, cycles past = last :: earlier →
          last.instant * nanosPerMilli + (planned world.nanos period past).period ≤
              m.instant * nanosPerMilli + Ticker.tolerance ∧
            (Ticker.tolerance < (planned world.nanos period past).period →
              last.instant < m.instant)) ∧
      ∀ instant, instant < s.world.now ∨ instant = s.world.now ∧ s.pollMoves = [] →
        (planned world.nanos period ms).deadline ≤ instant * nanosPerMilli →
          readyAt ms instant = false := by
  obtain ⟨period, hperiod, hpos, hcadence⟩ := exists_period_of_spawn hs
  have hstart : s₀.cadence.ticker = .every period.nanos world.nanos := by rw [hcadence]
  have hplanned : ∀ {ms s}, Scheduled s₀.cadence.ticker ms s →
      s.cadence.ticker = planned world.nanos period ms := by
    intro ms s hk
    rw [hk.ticker, hstart, planned]
  refine ⟨period, hperiod, hpos, ?_, ?_⟩
  · intro m past hm hfetches
    obtain ⟨hrpast, hstep⟩ := hr.of_suffix hm
    have hsuffix : past <:+ ms := (List.suffix_cons m past).trans hm
    have hppast := hp.of_suffix hsuffix
    have hdpast := hd.of_suffix hsuffix
    have hapartpast := hapart.of_suffix hm
    have hc := hrpast.commanded hs hppast hdpast hapartpast.of_cons
    have hk := hrpast.scheduled hs hppast hdpast hapartpast.of_cons
    have hact : m.act = .tick := Move.act_eq_tick (m.fetches_eq_isTick.symm.trans hfetches)
    obtain ⟨s, act⟩ := m
    obtain rfl : act = .tick := hact
    have hleast := hk.isLeast hc hstep (fun m' hm' => hr.instant_le hm hm') hapartpast
    rw [hplanned hk] at hleast
    refine ⟨hleast, ?_⟩
    intro last earlier hcycles
    have hdue := hleast.1.1
    rw [planned, hcycles] at hdue ⊢
    exact schedule_spacing_of_le hdue
  · intro instant hinstant hdeadline
    have hk := hr.scheduled hs hp hd hapart
    rw [← hplanned hk] at hdeadline
    rcases hinstant with hpast | ⟨rfl, hidle⟩
    · exact hk.missed instant hpast hdeadline
    · have hc := hr.commanded hs hp hd hapart
      have ho := hr.onTime hs hp hd
      exact hc.readyAt_of_idle ho hidle (fun m hm => (hr.instant_bounds hm).2) (Nat.le_refl _)
        (.inl rfl) hdeadline

/-- Every answer asks for an interval of seven seconds. -/
def sevenSeconds : Setup where
  source := { fallback := { checkin := .ofNat 7 } }
  clockEnd := 1000000 * nanosPerSecond

/-- Polling is started late, stopped, started again after more than one deadline, and ended. -/
def startedTwice : List Act :=
  [.wait 12000, .start, .takeStart, .tick, .answered, .wait 13000, .stop, .takeStop, .wait 30000,
    .check, .wait 40000, .start, .takeStart, .tick, .answered, .wait 47000, .tick, .answered,
    .wait 48000, .cancel, .endPolling, .leave, .wait 60000]

/-- The first request is late and adopts another period; of the missed ones only one is made. -/
theorem requested_thrice : ∃ s₀ ms s, spawnWithSource {} sevenSeconds {} = .ok s₀ ∧
    Run s₀ ms s ∧ Prompt ms ∧ Undelayed ms ∧ CommandsApart ms ∧
      cycles ms = [⟨47000, none⟩, ⟨40000, none⟩, ⟨12000, some (.ofSeconds 7)⟩] ∧
      ∃ period, Duration.ofBinary64? (Config.pollFrequency {}).toBinary64 = some period ∧
        ∀ m past, m :: past <:+ ms → m.fetches = true →
          IsLeast {instant | (planned 0 period past).deadline ≤ instant * nanosPerMilli ∧
            readyAt past instant = true} m.instant := by
  obtain ⟨s₀, ms, s, hs, hr, h⟩ := exists_run {} sevenSeconds {} startedTwice
    (fun _ ms _ => decide (Prompt ms) && decide (Undelayed ms) && decide (CommandsApart ms) &&
      decide (cycles ms = [⟨47000, none⟩, ⟨40000, none⟩, ⟨12000, some (.ofSeconds 7)⟩]))
    (by decide +kernel)
  simp only [Bool.and_eq_true, decide_eq_true_eq] at h
  obtain ⟨⟨⟨hp, hd⟩, hapart⟩, hcycles⟩ := h
  obtain ⟨period, hperiod, -, hfetches, -⟩ := Run.fetch_timing hs hr hp hd hapart
  exact ⟨s₀, ms, s, hs, hr, hp, hd, hapart, hcycles, period, hperiod,
    fun m past hm hfetch => (hfetches m past hm hfetch).1⟩

end Service

end CheckIn
