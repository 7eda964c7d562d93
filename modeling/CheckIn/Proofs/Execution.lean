/-
# The calls of a running service

The steps of a service say nothing about when the loops take their turns.  The functions that a
caller uses do: each of them lets both loops do all that is due, and time goes on from one instant
at which something is due to the next.  This file shows that what these functions do is a run in
which nothing is late, so that all that is proved about such runs holds of the running service
(`exists_run_of_calls`).

Letting the loops do what is due takes a bounded number of acts.  What a loop has to do is
measured by `pollWork` and by `Reaper.work`, which every act of the loop makes smaller, as long as
the deadlines of its ticker move on (`Paced`).  The bounds with which the functions are defined
are not smaller than that.
-/
import CheckIn.Proofs.FetchTiming

namespace CheckIn

/-- The ticker of a reaper that watches or closes. -/
def ReaperPhase.ticker? : ReaperPhase → Option Ticker
  | .watching ticker | .closing ticker _ => some ticker
  | .notStarted | .ended => none

/-- How many things a poll loop in this phase can do before it has to wait, at most. -/
def PollPhase.work : PollPhase → Nat
  | .ended => 0
  | .waiting => 1
  | .closing _ _ => 2
  | .fetching _ _ => 3

lemma Reaper.ticker?_phaseAfter (reaper : Reaper) (world : World) (ticker : Ticker) :
    (reaper.phaseAfter world ticker).ticker? = some ticker := by
  unfold phaseAfter
  split <;> rfl

/-- How many things a reaper in this phase can do before it has to wait, at most. -/
def ReaperPhase.work : ReaperPhase → Nat
  | .notStarted | .ended => 0
  | .watching _ => 1
  | .closing _ _ => 2

/-- How many things the reaper has to do now, at most. -/
def Reaper.work (reaper : Reaper) (world : World) : Nat :=
  reaper.phase.work + world.control.activity.pending.toNat + 3 * reaper.backlog world

lemma Reaper.backlog_eq (reaper : Reaper) (world : World) :
    reaper.backlog world =
      match reaper.phase.ticker? with
      | some ticker => world.nanos + 1 - ticker.deadline
      | none => 0 := by
  unfold backlog
  cases reaper.phase <;> rfl

namespace Service

variable {s₀ s s' : Service} {act : Act} {ms : List Move} {m : Move}

/-- No time passes with what the loops do. -/
lemma Act.ne_wait_of_isPolling (hact : act.isPolling = true) (instant : Nat) :
    act ≠ .wait instant := by
  rintro rfl
  cases hact

lemma Act.ne_wait_of_isReaping (hact : act.isReaping = true) (instant : Nat) :
    act ≠ .wait instant := by
  rintro rfl
  cases hact

/-! ## Deadlines move on -/

/-- Neither ticker stands still. -/
structure Paced (s : Service) : Prop where
  poll : 0 < s.cadence.ticker.period
  watch : ∀ ticker ∈ s.reaper.phase.ticker?, 0 < ticker.period

/-- A period that is adopted is not zero. -/
lemma Move.adopts_pos {period : Duration} (hadopts : m.adopts = some period) :
    0 < period.nanos := by
  obtain ⟨response, -, hpoll⟩ := Move.exists_of_adopts hadopts
  obtain ⟨-, hzero, -⟩ := pollable_eq_some_iff.mp hpoll
  exact Nat.pos_of_ne_zero (by simpa [Duration.isZero] using hzero)

/-- The ticker of the reaper keeps its period. -/
lemma period_reaperAfter {ticker : Ticker} (act : Act)
    (h : ticker ∈ (s.reaperAfter act).phase.ticker?) :
    ∃ before ∈ s.reaper.phase.ticker?, ticker.period = before.period := by
  cases act with
  | check =>
    cases hp : s.reaper.phase with
    | watching before =>
      simp only [reaperAfter, hp, Reaper.ticker?_phaseAfter, Option.mem_some_iff] at h
      exact ⟨before, rfl, h ▸ before.period_tick _⟩
    | _ =>
      simp only [reaperAfter, hp] at h
      exact ⟨ticker, h, rfl⟩
  | reaperClosed =>
    cases hp : s.reaper.phase with
    | closing before done =>
      simp only [reaperAfter, hp] at h
      exact ⟨ticker, h, rfl⟩
    | _ =>
      simp only [reaperAfter, hp] at h
      exact ⟨ticker, h, rfl⟩
  | leave => cases h
  | _ => exact ⟨ticker, h, rfl⟩

lemma Paced.after (hk : Paced s) (act : Act) : Paced (s.after act) := by
  constructor
  · have hticker : (s.after act).cadence.ticker = _ := Move.ticker_after ⟨s, act⟩
    rw [hticker]
    cases hadopts : (Move.mk s act).adopts with
    | some period => exact Move.adopts_pos hadopts
    | none =>
      dsimp only
      split
      · rw [Ticker.period_tick]
        exact hk.poll
      · exact hk.poll
  · intro ticker hticker
    obtain ⟨before, hbefore, hperiod⟩ := period_reaperAfter act hticker
    rw [hperiod]
    exact hk.watch before hbefore

/-- The tickers of a service that has just been started do not stand still. -/
lemma paced_of_spawn {config : Config} {setup : Setup} {world : World}
    (hs : spawnWithSource config setup world = .ok s₀) : Paced s₀ := by
  obtain ⟨cadence, hcadence, rfl⟩ := exists_cadence_of_spawn hs
  obtain ⟨period, -, hpos, rfl⟩ := Cadence.start_eq_ok hcadence
  refine ⟨hpos, ?_⟩
  rintro ticker hticker
  obtain rfl : _ = ticker := Option.some.inj hticker
  show 0 < Reaper.checkInterval.nanos
  decide

/-! ## What the poll loop has to do -/

/-- How many things the poll loop has to do now, at most. -/
def pollWork (s : Service) : Nat :=
  s.phase.work + s.startPending.toNat + s.stopPending.toNat + 3 * s.backlog

lemma nanos_after (hact : ∀ instant, act ≠ .wait instant) :
    (s.after act).world.nanos = s.world.nanos := by
  have hnow : (s.after act).world.now = s.world.now := by
    rw [world_after, now_worldAfter]
    split
    · next instant => exact absurd rfl (hact instant)
    · rfl
  rw [World.nanos, hnow, World.nanos]

/-- A tick makes up for a part of the backlog. -/
lemma backlog_after_tick (hk : Paced s) (hdue : s.cadence.ticker.isDue s.world.now = true) :
    (s.after .tick).backlog < s.backlog := by
  have hticker : (s.after .tick).cadence.ticker = s.cadence.ticker.tick s.world.nanos := by
    rw [cadence_after, cadenceAfter]
  have hnanos : (s.after .tick).world.nanos = s.world.nanos := nanos_after (by simp)
  have hmore := s.cadence.ticker.deadline_add_period_le_tick s.world.nanos
  have hpos := hk.poll
  have hcome : s.cadence.ticker.deadline ≤ s.world.nanos := (Ticker.isDue_iff _ _).mp hdue
  rw [backlog, backlog, hticker, hnanos]
  omega

/-- Nothing else adds to the backlog. -/
lemma backlog_after_le (hact : ∀ instant, act ≠ .wait instant) :
    (s.after act).backlog ≤ s.backlog := by
  have hticker : (s.after act).cadence.ticker = _ := Move.ticker_after ⟨s, act⟩
  have hnanos : (s.after act).world.nanos = s.world.nanos := nanos_after hact
  rw [backlog, backlog, hticker, hnanos]
  cases hadopts : (Move.mk s act).adopts with
  | some period =>
    have hpos := Move.adopts_pos hadopts
    simp only [Ticker.every]
    omega
  | none =>
    dsimp only
    split
    · have hmore := s.cadence.ticker.deadline_add_period_le_tick s.world.nanos
      omega
    · exact Nat.le_refl _

/-- The arrival of an answer ends a cycle or leaves only the rest of it. -/
lemma work_phaseAfter_answered {done : Nat} {answer : Except PollError Response}
    (hf : s.phase = .fetching done answer) :
    (s.phaseAfter .answered).work < s.phase.work := by
  cases answer with
  | error code => simp [phaseAfter, hf, answerOutcome, PollPhase.work]
  | ok response =>
    simp only [phaseAfter, hf, phase_answerOutcome]
    split <;> simp [PollPhase.work]

/-- Whatever the poll loop does, there is less to do for it afterwards. -/
lemma pollWork_lt (hk : Paced s) (h : Step s act s') (hact : act.isPolling = true) :
    s'.pollWork < s.pollWork := by
  have hle : (s.after act).backlog ≤ s.backlog :=
    backlog_after_le (Act.ne_wait_of_isPolling hact)
  have hafter := h.eq_after
  rw [hafter]
  have hwork : (s.after act).pollWork = (s.phaseAfter act).work +
    (s.startPendingAfter act).toNat + (s.stopPendingAfter act).toNat +
      3 * (s.after act).backlog := rfl
  rw [hwork, pollWork]
  cases h with
  | takeStart hw hpending =>
    simp only [phaseAfter, startPendingAfter, stopPendingAfter, hpending, Bool.toNat_true,
      Bool.toNat_false]
    omega
  | takeStop hw hpending =>
    simp only [phaseAfter, startPendingAfter, stopPendingAfter, hpending, Bool.toNat_true,
      Bool.toNat_false]
    omega
  | endPolling hw hcancelled =>
    simp only [phaseAfter, startPendingAfter, stopPendingAfter, hw, PollPhase.work]
    omega
  | tick hw ha hdue =>
    have hlt := backlog_after_tick hk hdue
    simp only [phaseAfter, startPendingAfter, stopPendingAfter, hw, PollPhase.work]
    omega
  | answered hf hdone =>
    have hphase := work_phaseAfter_answered hf
    simp only [startPendingAfter, stopPendingAfter]
    omega
  | closed hc hdone =>
    simp only [phaseAfter, startPendingAfter, stopPendingAfter, hc, PollPhase.work]
    omega
  | _ => simp [Act.isPolling] at hact

/-- If it is allowed to do enough, the poll loop is left with nothing to do. -/
lemma pollMoves_settlePoll {fuel : Nat} (hk : Paced s) (hwork : s.pollWork ≤ fuel) :
    (settlePoll fuel s).pollMoves = [] := by
  induction fuel generalizing s with
  | zero =>
    -- whatever could be done would leave less than nothing to do
    show s.pollMoves = []
    by_contra hmoves
    obtain ⟨next, hnext⟩ := List.exists_mem_of_ne_nil _ hmoves
    obtain ⟨act, hact, h⟩ := mem_pollMoves_iff.mp hnext
    have hlt := pollWork_lt hk h hact
    omega
  | succ fuel ih =>
    rw [settlePoll]
    cases hstep : s.pollStep? with
    | none =>
      rw [pollStep?, List.head?_eq_none_iff] at hstep
      exact hstep
    | some next =>
      obtain ⟨act, hact, h⟩ := mem_pollMoves_iff.mp (mem_pollMoves_of_pollStep? hstep)
      have hlt := pollWork_lt hk h hact
      obtain rfl := h.eq_after
      exact ih (hk.after act) (by omega)

/-! ## What the reaper has to do -/

lemma reaperWork_lt (hk : Paced s) (h : Step s act s') (hact : act.isReaping = true) :
    s'.reaper.work s'.world < s.reaper.work s.world := by
  have hnanos : (s.after act).world.nanos = s.world.nanos :=
    nanos_after (Act.ne_wait_of_isReaping hact)
  have hafter := h.eq_after
  rw [hafter, Reaper.work, Reaper.work, Reaper.backlog_eq, Reaper.backlog_eq, hnanos]
  cases h with
  | @takeReport ticker hw hpending =>
    have hphase : (s.after .takeReport).reaper.phase = s.reaper.phase := rfl
    have hslot : (s.after .takeReport).world.control.activity.pending = false := rfl
    rw [hphase, hslot, hpending]
    simp only [Bool.toNat_true, Bool.toNat_false]
    omega
  | @check ticker hw hdue =>
    have hpos : 0 < ticker.period := hk.watch ticker (by rw [hw, ReaperPhase.ticker?]; rfl)
    have hcome : ticker.deadline ≤ s.world.nanos := (Ticker.isDue_iff _ _).mp hdue
    have hmore := ticker.deadline_add_period_le_tick s.world.nanos
    have hphase : (s.after .check).reaper.phase =
        s.reaper.phaseAfter s.world (ticker.tick s.world.nanos) := by
      simp only [reaper_after, reaperAfter, hw]
    have hslot : (s.after .check).world.control.activity.pending =
        s.world.control.activity.pending := rfl
    have hwork : (s.reaper.phaseAfter s.world (ticker.tick s.world.nanos)).work ≤ 2 := by
      unfold Reaper.phaseAfter
      split <;> simp [ReaperPhase.work]
    have hbefore : s.reaper.phase.work = 1 := by rw [hw, ReaperPhase.work]
    have hticker : s.reaper.phase.ticker? = some ticker := by rw [hw, ReaperPhase.ticker?]
    rw [hphase, hslot, Reaper.ticker?_phaseAfter, hbefore, hticker]
    dsimp only
    omega
  | @reaperClosed ticker done hc hdone =>
    have hphase : (s.after .reaperClosed).reaper.phase = .watching ticker := by
      simp only [reaper_after, reaperAfter, hc]
    have hslot : (s.after .reaperClosed).world.control.activity.pending =
        s.world.control.activity.pending := rfl
    rw [hphase, hslot, hc]
    simp only [ReaperPhase.ticker?, ReaperPhase.work]
    omega
  | @leave ticker hw hcancelled =>
    have hphase : (s.after .leave).reaper.phase = .ended := rfl
    have hslot : (s.after .leave).world.control.activity.pending =
        s.world.control.activity.pending := rfl
    rw [hphase, hslot, hw]
    simp only [ReaperPhase.ticker?, ReaperPhase.work]
    omega
  | _ => simp [Act.isReaping] at hact

/-- If it is allowed to do enough, the reaper is left with nothing to do. -/
lemma moves_settleFor {fuel : Nat} (hk : Paced s) (hwork : s.reaper.work s.world ≤ fuel) :
    (s.reaper.settleFor fuel s.world).1.moves (s.reaper.settleFor fuel s.world).2 = [] := by
  induction fuel generalizing s with
  | zero =>
    show s.reaper.moves s.world = []
    by_contra hmoves
    obtain ⟨next, hnext⟩ := List.exists_mem_of_ne_nil _ hmoves
    obtain ⟨act, hact, h⟩ := mem_moves_iff.mp ⟨next, hnext, rfl⟩
    have hlt := reaperWork_lt hk h hact
    omega
  | succ fuel ih =>
    rw [Reaper.settleFor]
    cases hstep : s.reaper.step? s.world with
    | none =>
      rw [Reaper.step?, List.head?_eq_none_iff] at hstep
      exact hstep
    | some next =>
      obtain ⟨act, hact, h⟩ := mem_moves_iff.mp ⟨next, Reaper.mem_moves_of_step? hstep, rfl⟩
      have hlt := reaperWork_lt hk h hact
      have hnext : Paced (s.withReaper next) := h.eq_after ▸ hk.after act
      exact ih hnext (Nat.le_of_lt_succ (Nat.lt_of_lt_of_le hlt hwork))

/-! ## Doing what is due -/

/-- What every act of the poll loop preserves is preserved when it does what is due. -/
lemma settlePoll_invariant (I : Service → Prop) (fuel : Nat)
    (hstep : ∀ s s', I s → s.pollStep? = some s' → ∀ act, Step s act s' → act.isPolling = true →
      I s') (h : I s) : I (settlePoll fuel s) := by
  induction fuel generalizing s with
  | zero => exact h
  | succ fuel ih =>
    rw [settlePoll]
    cases hnext : s.pollStep? with
    | none => exact h
    | some next =>
      obtain ⟨act, hact, hs⟩ := mem_pollMoves_iff.mp (mem_pollMoves_of_pollStep? hnext)
      exact ih (hstep s next h hnext act hs hact)

/-- What every act of the reaper preserves is preserved when it does what is due. -/
lemma settleFor_invariant (I : Service → Prop) (fuel : Nat)
    (hstep : ∀ s act s', I s → Step s act s' → act.isReaping = true → I s') (h : I s) :
    I (s.withReaper (s.reaper.settleFor fuel s.world)) := by
  induction fuel generalizing s with
  | zero => exact h
  | succ fuel ih =>
    rw [Reaper.settleFor]
    cases hnext : s.reaper.step? s.world with
    | none => exact h
    | some next =>
      obtain ⟨act, hact, hs⟩ :=
        mem_moves_iff.mp ⟨next, Reaper.mem_moves_of_step? hnext, rfl⟩
      exact ih (hstep s act _ h hs hact)

/-- The poll loop has nothing to do if none of its acts can happen. -/
lemma pollMoves_eq_nil_iff :
    s.pollMoves = [] ↔ ∀ act, act.isPolling = true → s.can act = false := by
  constructor
  · intro hmoves act hact
    by_contra hcan
    obtain ⟨s', h⟩ := exists_step_of_can (Bool.of_not_eq_false hcan)
    have hmem : s' ∈ s.pollMoves := mem_pollMoves_iff.mpr ⟨act, hact, h⟩
    rw [hmoves] at hmem
    cases hmem
  · intro hcan
    by_contra hmoves
    obtain ⟨next, hnext⟩ := List.exists_mem_of_ne_nil _ hmoves
    obtain ⟨act, hact, h⟩ := mem_pollMoves_iff.mp hnext
    exact absurd ((hcan act hact).symm.trans h.can) Bool.false_ne_true

/-- The reaper has nothing to do if none of its acts can happen. -/
lemma moves_eq_nil_iff :
    s.reaper.moves s.world = [] ↔ ∀ act, act.isReaping = true → s.can act = false := by
  constructor
  · intro hmoves act hact
    by_contra hcan
    obtain ⟨s', h⟩ := exists_step_of_can (Bool.of_not_eq_false hcan)
    obtain ⟨next, hmem, -⟩ := mem_moves_iff.mpr ⟨act, hact, h⟩
    rw [hmoves] at hmem
    cases hmem
  · intro hcan
    by_contra hmoves
    obtain ⟨next, hnext⟩ := List.exists_mem_of_ne_nil _ hmoves
    obtain ⟨act, hact, h⟩ := mem_moves_iff.mp ⟨next, hnext, rfl⟩
    exact absurd ((hcan act hact).symm.trans h.can) Bool.false_ne_true

/-- What the reaper does gives the poll loop nothing to do. -/
lemma pollMoves_after_of_isReaping (h : Step s act s') (hact : act.isReaping = true)
    (hmoves : s.pollMoves = []) : s'.pollMoves = [] := by
  rw [pollMoves_eq_nil_iff] at hmoves ⊢
  intro other hother
  rw [← hmoves other hother, h.eq_after]
  cases act with
  | takeReport | check | reaperClosed | leave =>
    cases other <;> first | rfl | exact absurd hother Bool.false_ne_true
  | _ => exact absurd hact Bool.false_ne_true

/-- Neither loop has anything to do now. -/
structure Settled (s : Service) : Prop where
  poll : s.pollMoves = []
  watch : s.reaper.moves s.world = []

lemma pollWork_le (s : Service) : s.pollWork ≤ 3 * s.backlog + 8 := by
  have hphase : s.phase.work ≤ 3 := by cases s.phase <;> simp [PollPhase.work]
  have hstart : s.startPending.toNat ≤ 1 := Bool.toNat_le _
  have hstop : s.stopPending.toNat ≤ 1 := Bool.toNat_le _
  rw [pollWork]
  omega

lemma reaperWork_le (reaper : Reaper) (world : World) :
    reaper.work world ≤ 3 * reaper.backlog world + 4 := by
  have hphase : reaper.phase.work ≤ 2 := by cases reaper.phase <;> simp [ReaperPhase.work]
  have hpending : world.control.activity.pending.toNat ≤ 1 := Bool.toNat_le _
  rw [Reaper.work]
  omega

/-- A poll loop that has nothing to do still has nothing to do when the reaper has done what is
due. -/
lemma settled_settleFor {fuel : Nat} (hk : Paced s) (hpoll : s.pollMoves = [])
    (hwork : s.reaper.work s.world ≤ fuel) :
    Settled (s.withReaper (s.reaper.settleFor fuel s.world)) where
  poll := settleFor_invariant (fun s => s.pollMoves = []) fuel
    (fun _ _ _ hmoves h hact => pollMoves_after_of_isReaping h hact hmoves) hpoll
  watch := moves_settleFor hk hwork

lemma paced_settlePoll (hk : Paced s) (fuel : Nat) : Paced (settlePoll fuel s) :=
  settlePoll_invariant Paced fuel (fun _ _ hk _ act h _ => h.eq_after ▸ hk.after act) hk

/-- The service has settled when both loops have done what is due. -/
theorem settled_settle (hk : Paced s) : Settled s.settle := by
  rw [settle, settleReaper, Reaper.settle]
  exact settled_settleFor (paced_settlePoll hk _) (pollMoves_settlePoll hk (pollWork_le s))
    (reaperWork_le _ _)

/-! ## Going through time -/

/-- Whether a service is reached by a run in which nothing is late. -/
def Reached (s₀ s : Service) : Prop := ∃ ms, Run s₀ ms s ∧ Prompt ms

lemma Reached.move (hr : Reached s₀ s) (h : Step s act s')
    (hprompt : (Move.mk s act).isPrompt = true) : Reached s₀ s' := by
  obtain ⟨ms, hr, hp⟩ := hr
  refine ⟨_, hr.cons h, ?_⟩
  intro m hm
  rcases List.mem_cons.mp hm with rfl | hm
  · exact hprompt
  · exact hp m hm

/-- Anything but the passing of time can happen at any time. -/
lemma Reached.step (hr : Reached s₀ s) (h : Step s act s') (hact : ∀ instant, act ≠ .wait instant) :
    Reached s₀ s' := by
  refine hr.move h ?_
  cases act with
  | wait instant => exact absurd rfl (hact instant)
  | _ => rfl

lemma Reached.paced (hr : Reached s₀ s) (h₀ : Paced s₀) : Paced s := by
  obtain ⟨ms, hr, -⟩ := hr
  exact hr.invariant Paced h₀ fun s act s' hk h => h.eq_after ▸ hk.after act

lemma Reached.settle (hr : Reached s₀ s) : Reached s₀ s.settle := by
  refine settleFor_invariant (Reached s₀) _ ?_ (settlePoll_invariant (Reached s₀) _ ?_ hr)
  · intro s act s' hr h hact
    exact hr.step h (Act.ne_wait_of_isReaping hact)
  · intro s s' hr _ act h hact
    exact hr.step h (Act.ne_wait_of_isPolling hact)

/-- Doing what is due takes no time. -/
lemma now_settle (s : Service) : s.settle.world.now = s.world.now := by
  have hstep : ∀ s₁ act s', s₁.world.now = s.world.now → Step s₁ act s' →
      (∀ instant, act ≠ .wait instant) → s'.world.now = s.world.now := by
    intro s₁ act s' hnow h hact
    rw [← hnow, h.eq_after, world_after, now_worldAfter]
    split
    · next instant => exact absurd rfl (hact instant)
    · rfl
  refine settleFor_invariant (fun s' => s'.world.now = s.world.now) _ ?_
    (settlePoll_invariant (fun s' => s'.world.now = s.world.now) _ ?_ rfl)
  · intro s₁ act s' hnow h hact
    exact hstep s₁ act s' hnow h (Act.ne_wait_of_isReaping hact)
  · intro s₁ s' hnow _ act h hact
    exact hstep s₁ act s' hnow h (Act.ne_wait_of_isPolling hact)

/-- When neither loop has anything to do now, what they have to do next is later. -/
lemma Settled.now_lt_wake (hs : Settled s) {wake : Nat} (h : process.wake s = some wake) :
    s.world.now < wake := by
  have hpoll : ∀ wake, s.pollWake = some wake → s.world.now < wake := by
    intro wake hwake
    have hmoves := hs.poll
    unfold pollWake at hwake
    unfold pollMoves at hmoves
    cases hp : s.phase with
    | ended => simp [hp] at hwake
    | waiting =>
      simp only [hp, Option.ite_none_right_eq_some, Option.some.injEq] at hwake
      obtain ⟨ha, rfl⟩ := hwake
      simp [hp, ha, Ticker.isDue] at hmoves
      omega
    | fetching done answer =>
      simp only [hp, Option.some.injEq] at hwake
      simp [hp] at hmoves
      omega
    | closing done response =>
      simp only [hp, Option.some.injEq] at hwake
      simp [hp] at hmoves
      omega
  have hwatch : ∀ wake, s.reaper.wake = some wake → s.world.now < wake := by
    intro wake hwake
    have hmoves := hs.watch
    unfold Reaper.wake at hwake
    unfold Reaper.moves at hmoves
    cases hp : s.reaper.phase with
    | notStarted => simp [hp] at hwake
    | ended => simp [hp] at hwake
    | watching ticker =>
      simp only [hp, Option.some.injEq] at hwake
      simp [hp, Ticker.isDue] at hmoves
      omega
    | closing ticker done =>
      simp only [hp, Option.some.injEq] at hwake
      simp [hp] at hmoves
      omega
  simp only [process] at h
  cases hp : s.pollWake with
  | none =>
    rw [hp] at h
    cases hw : s.reaper.wake with
    | none => simp [hw, earlier] at h
    | some other =>
      obtain rfl : other = wake := by simpa [hw, earlier] using h
      exact hwatch _ hw
  | some other =>
    have hlt := hpoll other hp
    rw [hp] at h
    cases hw : s.reaper.wake with
    | none =>
      obtain rfl : other = wake := by simpa [hw, earlier] using h
      exact hlt
    | some third =>
      have hlt' := hwatch third hw
      have hmin : min other third = wake := by simpa [hw, earlier] using h
      omega

/-- Time can pass until the next instant at which something is due, which is then done. -/
lemma Reached.arrive (h₀ : Paced s₀) (hr : Reached s₀ s) (hs : Settled s) {instant : Nat}
    (hle : s.world.now ≤ instant)
    (hwake : ∀ wake, process.wake s = some wake → instant ≤ wake) :
    Reached s₀ (process.moveTo instant s).settle ∧ Settled (process.moveTo instant s).settle ∧
      (process.moveTo instant s).settle.world.now = instant := by
  have hreached : Reached s₀ (process.moveTo instant s) := by
    rcases Nat.eq_or_lt_of_le hle with rfl | hlt
    · exact hr
    · refine hr.move (.wait hlt) ?_
      have hall : (process.wake s).all (decide <| instant ≤ ·) = true := by
        cases hw : process.wake s with
        | none => rfl
        | some wake => exact decide_eq_true (hwake wake hw)
      simp [Move.isPrompt, restsUntil, hs.poll, hs.watch, hall]
  exact ⟨hreached.settle, settled_settle (hreached.paced h₀), now_settle _⟩

/-- Going on to an instant does on the way all that comes due, and not too late. -/
lemma Reached.runTo (h₀ : Paced s₀) {target fuel : Nat} (hr : Reached s₀ s) (hs : Settled s)
    (hle : s.world.now ≤ target) :
    Reached s₀ (process.runTo target fuel s) ∧ Settled (process.runTo target fuel s) ∧
      (target < s.world.now + fuel → (process.runTo target fuel s).world.now = target) := by
  induction fuel generalizing s with
  | zero =>
    refine ⟨hr, hs, fun hlt => ?_⟩
    omega
  | succ fuel ih =>
    rw [Process.runTo]
    cases hw : process.wake s with
    | none =>
      obtain ⟨hreached, hsettled, hnow⟩ := hr.arrive h₀ hs hle (by simp [hw])
      exact ⟨hreached, hsettled, fun _ => hnow⟩
    | some instant =>
      have hlt : s.world.now < instant := hs.now_lt_wake hw
      dsimp only
      split
      · next hdue =>
        have hmax : max instant (process.now s) = instant := Nat.max_eq_left (Nat.le_of_lt hlt)
        rw [hmax]
        obtain ⟨hreached, hsettled, hnow⟩ :=
          hr.arrive h₀ hs (Nat.le_of_lt hlt) (by simp [hw])
        obtain ⟨hreached', hsettled', htarget⟩ := ih hreached hsettled (hnow.symm ▸ hdue)
        refine ⟨hreached', hsettled', fun henough => htarget ?_⟩
        rw [hnow]
        omega
      · next hlater =>
        obtain ⟨hreached, hsettled, hnow⟩ :=
          hr.arrive h₀ hs hle (by simpa [hw] using Nat.le_of_lt (Nat.lt_of_not_le hlater))
        exact ⟨hreached, hsettled, fun _ => hnow⟩

/-- Time goes on as long as it should. -/
theorem Reached.advance (h₀ : Paced s₀) (hr : Reached s₀ s) (hs : Settled s) (millis : Nat) :
    Reached s₀ (s.advance millis) ∧ Settled (s.advance millis) ∧
      (s.advance millis).world.now = s.world.now + millis := by
  have hrun : s.advance millis = process.runTo (s.world.now + millis) (millis + 2) s := rfl
  obtain ⟨hreached, hsettled, hnow⟩ := hr.runTo h₀ hs (Nat.le_add_right s.world.now millis)
  rw [hrun]
  exact ⟨hreached, hsettled, hnow (by omega)⟩

/-! ## Waiting for a command to be taken -/

/-- Whether a command, `true` to start and `false` to stop, waits to be taken. -/
def isPending (command : Bool) (s : Service) : Bool :=
  if command then s.startPending else s.stopPending

/-- A command that still waits has waited before, and no cycle has begun in between. -/
def StillPending (command : Bool) (s s' : Service) : Prop :=
  s'.isPending command = true → s.isPending command = true ∧
    (s'.phase = s.phase ∨ s'.phase.work < s.phase.work)

lemma StillPending.trans {command : Bool} {s₁ s₂ s₃ : Service} (h : StillPending command s₁ s₂)
    (h' : StillPending command s₂ s₃) : StillPending command s₁ s₃ := by
  intro hpending
  obtain ⟨hbefore, hphase'⟩ := h' hpending
  obtain ⟨hfirst, hphase⟩ := h hbefore
  refine ⟨hfirst, ?_⟩
  rcases hphase' with hsame | hlt
  · rw [hsame]
    exact hphase
  · right
    rcases hphase with hsame | hlt'
    · rw [← hsame]
      exact hlt
    · exact Nat.lt_trans hlt hlt'

/-- While a command waits to be taken, the poll loop takes no tick. -/
lemma phase_of_pollStep? {command : Bool} (hpending : s.isPending command = true)
    (hw : s.phase = .waiting) (hstep : s.pollStep? = some s') : s'.phase = .waiting := by
  cases hstart : s.startPending with
  | true =>
    have htake : s.pollStep? = some s.takeStart := by simp [pollStep?, pollMoves, hw, hstart]
    obtain rfl := Option.some.inj (htake.symm.trans hstep)
    exact hw
  | false =>
    cases hstop : s.stopPending with
    | true =>
      have htake : s.pollStep? = some s.takeStop := by
        simp [pollStep?, pollMoves, hw, hstart, hstop]
      obtain rfl := Option.some.inj (htake.symm.trans hstep)
      exact hw
    | false => cases command <;> simp [isPending, hstart, hstop] at hpending

/-- What the poll loop does when a command waits to be taken brings it nearer to that. -/
lemma stillPending_of_pollStep? (command : Bool) (hstep : s.pollStep? = some s') :
    StillPending command s s' := by
  obtain ⟨act, hact, h⟩ := mem_pollMoves_iff.mp (mem_pollMoves_of_pollStep? hstep)
  intro hpending
  have hafter := h.eq_after
  cases h with
  | takeStart hw hstart =>
    cases command with
    | true => cases hpending
    | false => exact ⟨hpending, .inl rfl⟩
  | takeStop hw hstop =>
    cases command with
    | true => exact ⟨hpending, .inl rfl⟩
    | false => cases hpending
  | endPolling hw hcancelled =>
    refine ⟨hpending, .inr ?_⟩
    rw [hw]
    exact Nat.zero_lt_one
  | tick hw ha hdue =>
    rw [hafter] at hpending
    have hbefore : s.isPending command = true := hpending
    have hphase := phase_of_pollStep? hbefore hw hstep
    rw [hafter] at hphase
    cases hphase
  | answered hf hdone =>
    rw [hafter] at hpending ⊢
    exact ⟨hpending, .inr (work_phaseAfter_answered hf)⟩
  | closed hc hdone =>
    rw [hafter] at hpending ⊢
    refine ⟨hpending, .inr ?_⟩
    rw [hc]
    exact Nat.lt_succ_self 1
  | _ => simp [Act.isPolling] at hact

/-- What the reaper does is no concern of the poll loop. -/
lemma Step.phase_of_isReaping (h : Step s act s') (hact : act.isReaping = true) :
    s'.phase = s.phase ∧ s'.startPending = s.startPending ∧ s'.stopPending = s.stopPending := by
  rw [h.eq_after]
  cases act with
  | takeReport | check | reaperClosed | leave => exact ⟨rfl, rfl, rfl⟩
  | _ => exact absurd hact Bool.false_ne_true

lemma stillPending_settle (command : Bool) (s : Service) : StillPending command s s.settle := by
  refine settleFor_invariant (StillPending command s) _ ?_
    (settlePoll_invariant (StillPending command s) _ ?_ ?_)
  · intro s₁ act s' h hs hact
    obtain ⟨hphase, hstart, hstop⟩ := hs.phase_of_isReaping hact
    intro hpending
    rw [hphase]
    refine h ?_
    rw [isPending, hstart, hstop] at hpending
    exact hpending
  · intro s₁ s' h hstep act hs hact
    exact h.trans (stillPending_of_pollStep? command hstep)
  · exact fun hpending => ⟨hpending, .inl rfl⟩

lemma stillPending_runTo (command : Bool) (target fuel : Nat) (s : Service) :
    StillPending command s (process.runTo target fuel s) := by
  have harrive : ∀ instant (s : Service),
      StillPending command s (process.moveTo instant s).settle :=
    fun instant s => stillPending_settle command (process.moveTo instant s)
  induction fuel generalizing s with
  | zero => exact fun hpending => ⟨hpending, .inl rfl⟩
  | succ fuel ih =>
    rw [Process.runTo]
    cases process.wake s with
    | none => exact harrive target s
    | some instant =>
      dsimp only
      split
      · exact (harrive _ s).trans (ih _)
      · exact harrive target s

/-- A settled poll loop that has a command to take is busy, or has ended. -/
lemma Settled.phase_ne_waiting {command : Bool} (hs : Settled s)
    (hpending : s.isPending command = true) : s.phase ≠ .waiting := by
  intro hw
  have hmoves := hs.poll
  simp only [pollMoves, hw, List.append_eq_nil_iff, ite_eq_right_iff, List.cons_ne_nil,
    imp_false, Bool.not_eq_true] at hmoves
  cases command with
  | true => exact absurd (hmoves.1.1.1.symm.trans hpending) Bool.false_ne_true
  | false => exact absurd (hmoves.1.1.2.symm.trans hpending) Bool.false_ne_true

/-- A settled poll loop is not busy with what has come to its end. -/
lemma Settled.now_lt_busyUntil (hs : Settled s) {done : Nat} (h : s.busyUntil = some done) :
    s.world.now < done := by
  have hmoves := hs.poll
  cases hp : s.phase with
  | waiting | ended =>
    rw [busyUntil, hp] at h
    cases h
  | fetching finish | closing finish =>
    rw [busyUntil, hp] at h
    obtain rfl := Option.some.inj h
    simp only [pollMoves, hp, ite_eq_right_iff, List.cons_ne_nil, imp_false] at hmoves
    exact Nat.lt_of_not_le hmoves

lemma busyFor_eq (s : Service) : s.busyFor = s.busyUntil.map (· - s.world.now) := by
  unfold busyFor busyUntil
  cases s.phase <;> rfl

/-- Waiting for an earlier command to be taken comes to an end, unless the poll loop has ended. -/
lemma Reached.awaitPoll (h₀ : Paced s₀) (command : Bool) (fuel : Nat) (hr : Reached s₀ s)
    (hs : Settled s) (hwork : s.isPending command = true → s.phase.work ≤ fuel + 1) :
    Reached s₀ (s.awaitPoll (isPending command) fuel) ∧
      Settled (s.awaitPoll (isPending command) fuel) ∧
      ((s.awaitPoll (isPending command) fuel).isPending command = true →
        (s.awaitPoll (isPending command) fuel).pollEnded = true) := by
  induction fuel generalizing s with
  | zero =>
    refine ⟨hr, hs, fun hpending => ?_⟩
    have hle := hwork hpending
    show s.pollEnded = true
    cases hp : s.phase with
    | ended => rw [pollEnded, hp]
    | waiting => exact absurd hp (hs.phase_ne_waiting hpending)
    | _ => simp [hp, PollPhase.work] at hle
  | succ fuel ih =>
    rw [Service.awaitPoll]
    cases hpending : s.isPending command with
    | false => exact ⟨hr, hs, fun h => absurd (hpending.symm.trans h) Bool.false_ne_true⟩
    | true =>
      rw [if_pos rfl, busyFor_eq]
      cases hbusy : s.busyUntil with
      | none =>
        refine ⟨hr, hs, fun _ => ?_⟩
        show s.pollEnded = true
        cases hp : s.phase with
        | ended => rw [pollEnded, hp]
        | waiting => exact absurd hp (hs.phase_ne_waiting hpending)
        | fetching | closing =>
          rw [busyUntil, hp] at hbusy
          cases hbusy
      | some done =>
        have hlt := hs.now_lt_busyUntil hbusy
        obtain ⟨hreached, hsettled, hnow⟩ := hr.advance h₀ hs (done - s.world.now)
        refine ih hreached hsettled fun hpending' => ?_
        have hstill : StillPending command s (s.advance (done - s.world.now)) :=
          stillPending_runTo command _ _ s
        rcases (hstill hpending').2 with hsame | hless
        · -- what it was busy with has come to its end by now
          have hbusy' : (s.advance (done - s.world.now)).busyUntil = some done := by
            rw [← hbusy, busyUntil, hsame, busyUntil]
          have hlt' := hsettled.now_lt_busyUntil hbusy'
          omega
        · exact Nat.le_of_lt_succ (Nat.lt_of_lt_of_le hless (hwork hpending))

/-! ## Calls -/

/-- What can be done with a running service. -/
inductive Call
  | start
  | stop
  | reportActivity
  | cancel
  | shutdown
  /-- Some milliseconds pass. -/
  | advance (millis : Nat)
  | change (change : Outside)

/-- Does a call. -/
def call (service : Service) : Call → Service
  | .start => service.start
  | .stop => service.stop
  | .reportActivity => service.reportActivity
  | .cancel => service.cancel
  | .shutdown => service.shutdown
  | .advance millis => service.advance millis
  | .change change => service.change change.apply

lemma Reached.settled (h₀ : Paced s₀) (hr : Reached s₀ s) :
    Reached s₀ s.settle ∧ Settled s.settle :=
  ⟨hr.settle, settled_settle (hr.paced h₀)⟩

/-- A record gives neither loop anything to do. -/
lemma Settled.note (hs : Settled s) (record : LogRecord) :
    Settled { s with world := s.world.note record } := by
  constructor
  · have hmoves := hs.poll
    rw [pollMoves_eq_nil_iff] at hmoves ⊢
    intro act hact
    rw [← hmoves act hact]
    cases act <;> rfl
  · have hmoves := hs.watch
    have hnoted := moves_eq_nil_iff (s := { s with world := s.world.note record })
    rw [moves_eq_nil_iff] at hmoves
    refine hnoted.mpr fun act hact => ?_
    rw [← hmoves act hact]
    cases act <;> rfl

/-- A command is taken as soon as the poll loop waits, or not any more. -/
lemma Reached.send (h₀ : Paced s₀) (hr : Reached s₀ s) (hs : Settled s) (h : Step s act s')
    (hact : ∀ instant, act ≠ .wait instant)
    (hignored : s.pollEnded = true → ∃ record, s' = { s with world := s.world.note record }) :
    Reached s₀ (if s.pollEnded then s' else s'.settle) ∧
      Settled (if s.pollEnded then s' else s'.settle) := by
  have hreached := hr.step h hact
  cases hended : s.pollEnded with
  | true =>
    obtain ⟨record, rfl⟩ := hignored hended
    exact ⟨hreached, hs.note record⟩
  | false => exact hreached.settled h₀

/-- The caller of a command waits until an earlier one has been taken, and then sends it. -/
lemma start_eq (s : Service) :
    s.start = if (s.awaitPoll (isPending true) 2).pollEnded then
        (s.awaitPoll (isPending true) 2).sendStart
      else (s.awaitPoll (isPending true) 2).sendStart.settle := by
  have hpending : isPending true = (·.startPending) := rfl
  rw [hpending, Service.start, sendStart]
  split <;> rfl

lemma stop_eq (s : Service) :
    s.stop = if (s.awaitPoll (isPending false) 2).pollEnded then
        (s.awaitPoll (isPending false) 2).sendStop
      else (s.awaitPoll (isPending false) 2).sendStop.settle := by
  have hpending : isPending false = (·.stopPending) := rfl
  rw [hpending, Service.stop, sendStop]
  split <;> rfl

/-- Waiting for both loops to end does what comes due. -/
lemma Reached.awaitEnd (h₀ : Paced s₀) (fuel : Nat) (hr : Reached s₀ s) (hs : Settled s) :
    Reached s₀ (s.awaitEnd fuel) ∧ Settled (s.awaitEnd fuel) := by
  induction fuel generalizing s with
  | zero => exact ⟨hr, hs⟩
  | succ fuel ih =>
    rw [Service.awaitEnd]
    cases process.wake s with
    | none => exact ⟨hr, hs⟩
    | some instant =>
      obtain ⟨hreached, hsettled, -⟩ := hr.advance h₀ hs (instant - s.world.now)
      exact ih hreached hsettled

/-- Whatever is called, what is due is done, and nothing is late. -/
theorem Reached.call (h₀ : Paced s₀) (hr : Reached s₀ s) (hs : Settled s) (call : Call) :
    Reached s₀ (s.call call) ∧ Settled (s.call call) := by
  have hwork : s.phase.work ≤ 2 + 1 := by cases s.phase <;> simp [PollPhase.work]
  cases call with
  | start =>
    obtain ⟨hr, hs, hroom⟩ := hr.awaitPoll h₀ true 2 hs fun _ => hwork
    rw [Service.call, start_eq]
    refine hr.send h₀ hs (.start hroom) (by simp) fun hended => ⟨.startIgnored, ?_⟩
    rw [sendStart, if_pos hended]
  | stop =>
    obtain ⟨hr, hs, hroom⟩ := hr.awaitPoll h₀ false 2 hs fun _ => hwork
    rw [Service.call, stop_eq]
    refine hr.send h₀ hs (.stop hroom) (by simp) fun hended => ⟨.stopIgnored, ?_⟩
    rw [sendStop, if_pos hended]
  | reportActivity => exact (hr.step .reportActivity (by simp)).settled h₀
  | cancel => exact (hr.step .cancel (by simp)).settled h₀
  | shutdown =>
    obtain ⟨hr, hs⟩ := (hr.step .cancel (by simp)).settled h₀
    exact hr.awaitEnd h₀ 4 hs
  | advance millis =>
    obtain ⟨hreached, hsettled, -⟩ := hr.advance h₀ hs millis
    exact ⟨hreached, hsettled⟩
  | change change => exact (hr.step (.outside change) (by simp)).settled h₀

/-- What is done with a running service, call by call, is a run in which nothing is late, and its
journal is what happened in this run. -/
theorem exists_run_of_calls {config : Config} {setup : Setup} {world : World}
    (hs : spawnWithSource config setup world = .ok s₀) (calls : List Call) :
    ∃ ms, Run s₀ ms (calls.foldl call s₀) ∧ Prompt ms ∧
      (calls.foldl call s₀).world.journal =
        ms.flatMap (fun m => (m.events.map (m.instant, ·)).reverse) ++ s₀.world.journal := by
  have h₀ := paced_of_spawn hs
  have hsettled : Settled s₀ := by
    obtain ⟨cadence, -, rfl⟩ := exists_cadence_of_spawn hs
    have hsettle := settled_settle h₀
    rw [settle_begun] at hsettle
    exact hsettle
  have hreached : ∀ (calls : List Call) s, Reached s₀ s → Settled s →
      Reached s₀ (calls.foldl call s) := by
    intro calls
    induction calls with
    | nil => exact fun s hr _ => hr
    | cons first calls ih =>
      intro s hr hs
      obtain ⟨hr, hs⟩ := hr.call h₀ hs first
      exact ih _ hr hs
  obtain ⟨ms, hr, hp⟩ := hreached calls s₀ ⟨[], .nil, by simp [Prompt]⟩ hsettled
  exact ⟨ms, hr, hp, hr.journal_eq⟩

end Service

end CheckIn
