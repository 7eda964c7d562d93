/-
# An armed poll loop keeps asking

Nothing that the controller answers can silence the agent.  There are two ways in which an answer
could try.  It could ask for an interval that is never over; but an interval is adopted only if
its duration is not zero and at most a day, so the period in force always is (`Run.period_usable`).
Or it could make a step of the cycle fail; but no failure ends the poll loop, which ends only when
it is told to.

So while ticks are taken, the deadline is at most a day after the last request, and a request is
made when it has come.  Hence there is one in every span of a day in which the poll loop stays
armed (`Run.never_silent`), as long as nothing is late and answers and closings take no time.
-/
import CheckIn.Proofs.FetchTiming

namespace CheckIn

/-- The milliseconds of the longest period, a day. -/
def dayMillis : Nat := 86400000

lemma maxPollFrequency_nanos : Config.maxPollFrequency.nanos = dayMillis * nanosPerMilli := rfl

/-- A deadline within a day of an instant is due within a day of it. -/
lemma Ticker.dueAt_le {ticker : Ticker} {instant : Nat}
    (h : ticker.deadline ≤ (instant + dayMillis) * nanosPerMilli) :
    ticker.dueAt ≤ instant + dayMillis := by
  have hdue := (ticker.isDue_iff (instant + dayMillis)).mpr h
  exact of_decide_eq_true hdue

namespace Service

variable {s₀ s s' : Service} {act : Act} {ms past : List Move} {m : Move}

/-! ## The period in force -/

/-- Whether a ticker neither stands still nor lets more than a day pass. -/
structure UsablePeriod (ticker : Ticker) : Prop where
  pos : 0 < ticker.period
  le_day : ticker.period ≤ Config.maxPollFrequency.nanos

/-- Only a period that can be polled at is adopted. -/
lemma usablePeriod_of_adopts {period : Duration} (hadopts : m.adopts = some period) (now : Nat) :
    UsablePeriod (.every period.nanos now) := by
  obtain ⟨response, -, hpoll⟩ := Move.exists_of_adopts hadopts
  obtain ⟨-, hzero, hle⟩ := pollable_eq_some_iff.mp hpoll
  have hne : period.nanos ≠ 0 := by simpa [Duration.isZero] using hzero
  exact ⟨Nat.pos_of_ne_zero hne, hle⟩

lemma UsablePeriod.after (hu : UsablePeriod s.cadence.ticker) (act : Act) :
    UsablePeriod (s.after act).cadence.ticker := by
  have hticker : (s.after act).cadence.ticker = _ := Move.ticker_after ⟨s, act⟩
  rw [hticker]
  cases hadopts : (Move.mk s act).adopts with
  | some period => exact usablePeriod_of_adopts hadopts _
  | none =>
    dsimp only
    split
    · exact ⟨by rw [Ticker.period_tick]; exact hu.pos, by rw [Ticker.period_tick]; exact hu.le_day⟩
    · exact hu

/-- Whatever is answered and whatever fails, the period in force can be polled at. -/
theorem Run.period_usable (hr : Run s₀ ms s) (h₀ : UsablePeriod s₀.cadence.ticker) :
    UsablePeriod s.cadence.ticker := by
  refine hr.invariant (fun s => UsablePeriod s.cadence.ticker) h₀ ?_
  intro s act s' hu h
  rw [h.eq_after]
  exact hu.after act

lemma usablePeriod_of_spawn {config : Config} {setup : Setup} {world : World}
    (hs : spawnWithSource config setup world = .ok s₀)
    (h₀ : s₀.cadence.ticker.period ≤ Config.maxPollFrequency.nanos) :
    UsablePeriod s₀.cadence.ticker := by
  obtain ⟨period, -, hpos, hcadence⟩ := exists_period_of_spawn hs
  refine ⟨?_, h₀⟩
  rw [hcadence]
  exact hpos

/-! ## The deadline is near -/

/-- When the last request was made, or polling began. -/
def lastRequest (start : Nat) (ms : List Move) : Nat :=
  ((cycles ms).head?.map Cycle.instant).getD start

lemma lastRequest_of_tick {start : Nat} (htick : m.isTick = true) :
    lastRequest start (m :: past) = m.instant := by
  rw [lastRequest, cycles_of_tick htick]
  rfl

/-- What is no tick makes no request. -/
lemma lastRequest_of_not_tick {start : Nat} (htick : m.isTick = false) :
    lastRequest start (m :: past) = lastRequest start past := by
  rw [lastRequest, lastRequest]
  cases hadopts : m.adopts with
  | none => rw [cycles_of_neither htick hadopts]
  | some period =>
    cases hcycles : cycles past with
    | nil => simp [cycles, m.fetches_eq_isTick.trans htick, hadopts, hcycles]
    | cons cycle earlier =>
      rw [cycles_of_adopts hadopts hcycles]
      rfl

/-- The last request is one of the moves. -/
lemma lastRequest_eq_or_mem (start : Nat) (ms : List Move) :
    lastRequest start ms = start ∨
      ∃ m ∈ ms, m.fetches = true ∧ m.instant = lastRequest start ms := by
  induction ms with
  | nil => exact .inl rfl
  | cons m past ih =>
    cases htick : m.isTick with
    | true =>
      right
      exact ⟨m, List.mem_cons_self, m.fetches_eq_isTick.trans htick,
        (lastRequest_of_tick htick).symm⟩
    | false =>
      rw [lastRequest_of_not_tick htick]
      rcases ih with hstart | ⟨m', hm', hrequest⟩
      · exact .inl hstart
      · exact .inr ⟨m', List.mem_cons_of_mem m hm', hrequest⟩

/-- The next deadline is at most one period after the last request. -/
structure DeadlineNear (start : Nat) (ms : List Move) (s : Service) : Prop where
  deadline : s.cadence.ticker.deadline ≤
    lastRequest start ms * nanosPerMilli + s.cadence.ticker.period
  /-- A cycle that has begun has begun just now. -/
  busy : s.busyUntil.isSome = true → ∃ earlier, cycles ms = ⟨s.world.now, none⟩ :: earlier

lemma DeadlineNear.step {start : Nat} (hn : DeadlineNear start ms s) (ho : OnTime s)
    (h : Step s act s') (hp : Prompt (⟨s, act⟩ :: ms)) :
    DeadlineNear start (⟨s, act⟩ :: ms) s' := by
  refine ⟨?_, exists_cycles_of_busy ho h hp hn.busy⟩
  have hticker : s'.cadence.ticker = _ := h.eq_afterMove ▸ Move.ticker_after ⟨s, act⟩
  rw [hticker]
  cases hadopts : (Move.mk s act).adopts with
  | some period =>
    -- the cycle that adopts a period made its request at this instant
    obtain ⟨response, hd, -⟩ := Move.exists_of_adopts hadopts
    obtain ⟨htick, hbusy, -⟩ := Move.of_dispatched hd
    obtain ⟨earlier, hcycles⟩ := hn.busy hbusy
    rw [lastRequest_of_not_tick htick, lastRequest, hcycles]
    exact Nat.le_refl _
  | none =>
    cases htick : (Move.mk s act).isTick with
    | false =>
      rw [lastRequest_of_not_tick htick]
      exact hn.deadline
    | true =>
      rw [lastRequest_of_tick htick, if_pos rfl, Ticker.period_tick]
      obtain rfl : act = .tick := Move.act_eq_tick htick
      cases h with
      | tick hw ha hdue =>
        -- the deadline has come, so the next one is one period after now at most
        have hcome : s.cadence.ticker.deadline ≤ s.world.nanos := (Ticker.isDue_iff _ _).mp hdue
        have hnow : (Move.mk s .tick).instant * nanosPerMilli = s.world.nanos := rfl
        rw [hnow]
        dsimp only
        unfold Ticker.tick
        split
        · exact Nat.le_refl _
        · exact Nat.add_le_add_right hcome _

/-- If nothing takes time and nothing is late, the next deadline is near. -/
theorem Run.deadlineNear {config : Config} {setup : Setup} {world : World}
    (hs : spawnWithSource config setup world = .ok s₀) (hr : Run s₀ ms s) (hp : Prompt ms)
    (hd : Undelayed ms) : DeadlineNear world.now ms s := by
  induction hr with
  | nil =>
    obtain ⟨period, -, -, hcadence⟩ := exists_period_of_spawn hs
    constructor
    · rw [hcadence]
      exact Nat.le_refl _
    · obtain ⟨cadence, -, rfl⟩ := exists_cadence_of_spawn hs
      intro hbusy
      cases hbusy
  | cons hr h ih =>
    have ho := hr.onTime hs hp.of_cons hd.of_cons
    exact (ih hp.of_cons hd.of_cons).step ho h hp

/-! ## No silence -/

/-- The poll loop ends only when it is told to. -/
lemma Run.cancelled_of_pollEnded {config : Config} {setup : Setup} {world : World}
    (hs : spawnWithSource config setup world = .ok s₀) (hr : Run s₀ ms s)
    (hended : s.phase = .ended) : s.world.cancelled = true := by
  refine hr.invariant (fun s => s.phase = .ended → s.world.cancelled = true) ?_ ?_ hended
  · obtain ⟨cadence, -, rfl⟩ := exists_cadence_of_spawn hs
    intro hended
    cases hended
  · intro s act s' ih h
    have hafter := h.eq_after
    cases h with
    | endPolling hw hcancelled => exact fun _ => hcancelled
    | cancel => exact fun _ => rfl
    | @answered done answer hf hdone =>
      -- no answer ends the poll loop
      rw [hafter]
      intro hended
      cases answer with
      | error code =>
        simp only [phase_after, phaseAfter, hf] at hended
        cases hended
      | ok response =>
        simp only [phase_after, phaseAfter, hf, phase_answerOutcome] at hended
        split at hended <;> cases hended
    | tick | closed =>
      rw [hafter]
      intro hended
      cases hended
    | outside change => cases change <;> exact ih
    | _ =>
      rw [hafter]
      exact ih

/-- Whether some of the time between two instants passes with a move. -/
def Move.passesBetween (m : Move) (first last : Nat) : Bool :=
  match m.act with
  | .wait later => decide (m.instant < last) && decide (first < later)
  | _ => false

/-- The poll loop is armed, and has not been told to end, whenever time passes between two
instants. -/
def StaysArmed (ms : List Move) (first last : Nat) : Prop :=
  ∀ m ∈ ms, m.passesBetween first last = true →
    m.before.armed = true ∧ m.before.world.cancelled = false

instance (ms : List Move) (first last : Nat) : Decidable (StaysArmed ms first last) :=
  inferInstanceAs (Decidable (∀ m ∈ ms, m.passesBetween first last = true →
    m.before.armed = true ∧ m.before.world.cancelled = false))

lemma StaysArmed.of_cons {first last : Nat} (h : StaysArmed (m :: ms) first last) :
    StaysArmed ms first last :=
  fun m' hm' => h m' (List.mem_cons_of_mem m hm')

/-- While an armed poll loop lets time pass, it waits for its ticker. -/
lemma OnTime.pollWake_eq (ho : OnTime s) (hmoves : s.pollMoves = []) (harmed : s.armed = true)
    (hended : s.phase ≠ .ended) : s.pollWake = some s.cadence.ticker.dueAt := by
  have hidle := ho.busyUntil_eq_none hmoves
  cases hw : s.phase with
  | waiting =>
    rw [pollWake, hw]
    exact if_pos harmed
  | ended => exact absurd hw hended
  | _ =>
    rw [busyUntil, hw] at hidle
    cases hidle

/-- As long as no request is made from an instant on, less than a day has passed since then. -/
lemma Run.now_le_of_silent {config : Config} {setup : Setup} {world : World} {first : Nat}
    (hs : spawnWithSource config setup world = .ok s₀)
    (h₀ : s₀.cadence.ticker.period ≤ Config.maxPollFrequency.nanos) (hr : Run s₀ ms s)
    (hp : Prompt ms) (hd : Undelayed ms) (hfirst : world.now ≤ first)
    (harmed : StaysArmed ms first (first + dayMillis + 1))
    (hsilent : ∀ m ∈ ms, m.fetches = true → first ≤ m.instant → first + dayMillis < m.instant) :
    s.world.now ≤ first + dayMillis := by
  induction hr with
  | nil =>
    obtain ⟨cadence, -, rfl⟩ := exists_cadence_of_spawn hs
    exact Nat.le_trans hfirst (Nat.le_add_right _ _)
  | @cons ms s s' act hr h ih =>
    have hbefore := ih hp.of_cons hd.of_cons harmed.of_cons
      fun m hm => hsilent m (List.mem_cons_of_mem _ hm)
    have hafter := h.eq_after
    rw [hafter, world_after, now_worldAfter]
    cases h with
    | @wait later hlt =>
      by_cases hlater : later ≤ first
      · exact Nat.le_trans hlater (Nat.le_add_right _ _)
      · -- time passes, so the poll loop waits for its ticker
        have hpasses : (Move.mk s (.wait later)).passesBetween first (first + dayMillis + 1) =
            true := by
          exact Bool.and_eq_true_iff.mpr ⟨decide_eq_true (Nat.lt_succ_of_le hbefore),
            decide_eq_true (Nat.lt_of_not_le hlater)⟩
        obtain ⟨ha, hrunning⟩ := harmed _ List.mem_cons_self hpasses
        have hended : s.phase ≠ .ended := by
          intro hended
          rw [hr.cancelled_of_pollEnded hs hended] at hrunning
          cases hrunning
        have ho := hr.onTime hs hp.of_cons hd.of_cons
        have hwake := ho.pollWake_eq hp.pollMoves_eq_nil ha hended
        refine Nat.le_trans (hp.le_wake.1 _ hwake) (Ticker.dueAt_le ?_)
        -- the last request was made before the silence, and its deadline is near
        have hlast : lastRequest world.now ms ≤ first := by
          rcases lastRequest_eq_or_mem world.now ms with hstart | ⟨m, hm, hfetches, hinstant⟩
          · rw [hstart]
            exact hfirst
          · by_contra hlate
            have hbeyond := hsilent m (List.mem_cons_of_mem _ hm) hfetches (by omega)
            have hle := (hr.instant_bounds hm).2
            omega
        have hdeadline := (hr.deadlineNear hs hp.of_cons hd.of_cons).deadline
        have hperiod := (hr.period_usable (usablePeriod_of_spawn hs h₀)).le_day
        rw [maxPollFrequency_nanos] at hperiod
        calc s.cadence.ticker.deadline
            ≤ lastRequest world.now ms * nanosPerMilli + s.cadence.ticker.period := hdeadline
          _ ≤ first * nanosPerMilli + dayMillis * nanosPerMilli :=
            Nat.add_le_add (Nat.mul_le_mul_right _ hlast) hperiod
          _ = (first + dayMillis) * nanosPerMilli := (Nat.add_mul _ _ _).symm
    | _ => exact hbefore

/-- Whatever the controller answers and whatever fails, the period in force is not zero and at
most a day, if the first one was.  And if nothing is late and answers and closings take no time,
then from any instant on a request is made within a day, as long as the poll loop stays armed and
is not told to end. -/
theorem Run.never_silent {config : Config} {setup : Setup} {world : World}
    (hs : spawnWithSource config setup world = .ok s₀)
    (h₀ : s₀.cadence.ticker.period ≤ Config.maxPollFrequency.nanos) (hr : Run s₀ ms s) :
    (0 < s.cadence.ticker.period ∧ s.cadence.ticker.period ≤ Config.maxPollFrequency.nanos) ∧
    (Prompt ms → Undelayed ms → ∀ first, world.now ≤ first →
      first + dayMillis + 1 ≤ s.world.now → StaysArmed ms first (first + dayMillis + 1) →
        ∃ m ∈ ms, m.fetches = true ∧ first ≤ m.instant ∧ m.instant ≤ first + dayMillis) := by
  have husable := hr.period_usable (usablePeriod_of_spawn hs h₀)
  refine ⟨⟨husable.pos, husable.le_day⟩, ?_⟩
  intro hp hd first hfirst hlong harmed
  by_contra hnone
  have hnow := hr.now_le_of_silent hs h₀ hp hd hfirst harmed fun m hm hfetches hle => by
    by_contra hearly
    exact hnone ⟨m, hm, hfetches, hle, Nat.le_of_not_lt hearly⟩
  omega

/-- Cycles are a day apart, and a tunnel is closed after one second without activity. -/
def daily : Config where
  pollFrequency := .ofSeconds 86400
  inactivityTimeout := .ofSeconds 1

/-- The first answer is refused; the second one asks for a tunnel without giving credentials, and
for an interval that is no number; all later ones ask for an infinite interval. -/
def hostile : Setup where
  hasTunnel := true
  transport := { isOpen := true }
  source :=
    { answers :=
        [.error (.status 500), .ok { status := .required, checkin := ⟨0x7ff8000000000000⟩ }]
      fallback := { checkin := ⟨0x7ff0000000000000⟩ } }
  clockEnd := 1000000 * nanosPerSecond

/-- The reaper is busy with a close for more than three days.  Meanwhile the tunnel is closed from
outside, and three requests are made. -/
def threeDays : List Act :=
  [.start, .takeStart, .reportActivity, .takeReport, .wait 30000, .check,
    .outside (.closeDelay 0), .outside (.tunnel false), .wait 86400000, .tick, .answered,
    .wait 172800000, .tick, .answered, .wait 259200000, .tick, .answered, .wait 259200001]

/-- Between the first and the last of three requests every span of a day holds one. -/
theorem asked_every_day : ∃ s₀ ms s,
    spawnWithSource daily hostile { closeDelay := 1000000000 } = .ok s₀ ∧
      s₀.cadence.ticker.period ≤ Config.maxPollFrequency.nanos ∧ Run s₀ ms s ∧ Prompt ms ∧
      Undelayed ms ∧ (cycles ms).length = 3 ∧
      (0 < s.cadence.ticker.period ∧ s.cadence.ticker.period ≤ Config.maxPollFrequency.nanos) ∧
      ∀ first ∈ [0, 1, 86400000, 86400001, 172800000],
        first + dayMillis + 1 ≤ s.world.now ∧ StaysArmed ms first (first + dayMillis + 1) ∧
          ∃ m ∈ ms, m.fetches = true ∧ first ≤ m.instant ∧ m.instant ≤ first + dayMillis := by
  obtain ⟨s₀, ms, s, hs, hr, h⟩ := exists_run daily hostile { closeDelay := 1000000000 } threeDays
    (fun s₀ ms s => decide (s₀.cadence.ticker.period ≤ Config.maxPollFrequency.nanos) &&
      decide (Prompt ms) && decide (Undelayed ms) && (cycles ms).length == 3 &&
      [0, 1, 86400000, 86400001, 172800000].all fun first =>
        decide (first + dayMillis + 1 ≤ s.world.now) &&
          decide (StaysArmed ms first (first + dayMillis + 1))) (by decide +kernel)
  simp only [Bool.and_eq_true, decide_eq_true_eq, beq_iff_eq, List.all_eq_true] at h
  obtain ⟨⟨⟨⟨h₀, hp⟩, hd⟩, hcycles⟩, hspans⟩ := h
  obtain ⟨hperiod, hrequest⟩ := Run.never_silent hs h₀ hr
  refine ⟨s₀, ms, s, hs, h₀, hr, hp, hd, hcycles, hperiod, ?_⟩
  intro first hfirst
  obtain ⟨hlong, harmed⟩ := hspans first hfirst
  exact ⟨hlong, harmed, hrequest hp hd first (Nat.zero_le _) hlong harmed⟩

end Service

end CheckIn
