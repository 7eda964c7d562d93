/-
# What the history of a reaper tells

A reaper remembers an instant, and learns of reports through a slot for one of them.  Yet whether
a check has the tunnel closed can be told from the history alone: the tunnel is there, it was
reported to be in use while it was there, and the last such report is at least the timeout ago
(`FollowsHistory`).  Two invariants carry this.  The next check is the next point of a grid that
is fixed at the start (`OnSchedule`); and a report of this very instant waits for the reaper, or
it remembers the last report (`Remembers`).

Both need that nothing is late and that every close has ended when the next check is due.  A
report that is made while the reaper closes the tunnel is taken at the end of that, and counts
from there; and a close that takes longer delays the next check (`not_followsHistory`).
-/
import CheckIn.Proofs.Grid
import CheckIn.Proofs.ReaperRun
import Mathlib.Data.List.Infix

namespace CheckIn

namespace Reaper

variable {reaper : Reaper} {world : World} {s₀ s : Scene} {ms past : List Move} {m m' : Move}
  {act : Act} {first : Option Nat} {period start : Nat}

/-! ## Reports and checks -/

/-- Whether a move reports that a tunnel is in use which is there. -/
def Move.accepted (m : Move) : Bool :=
  match m.act with
  | .report => m.before.world.hasTunnel && m.before.world.control.transport.isOpen
  | _ => false

/-- Whether a move is a check. -/
def Move.isCheck (m : Move) : Bool :=
  match m.act with
  | .check => true
  | _ => false

/-- Whether a move is the end of a close. -/
def Move.endsClose (m : Move) : Bool :=
  match m.act with
  | .closed => true
  | _ => false

/-- Whether an open tunnel was reported to be in use since the last check. -/
def reportedSinceCheck (ms : List Move) : Bool :=
  (ms.takeWhile (!·.isCheck)).any Move.accepted

/-- The instant, in milliseconds, from which the last report of an open tunnel counts, if `first`
is that of the last one before the run.  A report counts from when it was made, but one that was
made while the reaper closed the tunnel counts from the end of that. -/
def lastReport (first : Option Nat) : List Move → Option Nat
  | [] => first
  | m :: past =>
    if m.accepted || (m.endsClose && reportedSinceCheck past) then some m.instant
    else lastReport first past

/-- A report that waits when a reaper starts counts from then. -/
def firstReport (world : World) : Option Nat :=
  if world.control.activity.pending then some world.now else none

/-- The number of checks. -/
def checks (ms : List Move) : Nat := ms.countP Move.isCheck

/-- Whether a move is a check that has the tunnel closed. -/
def Move.closes (m : Move) : Bool := m.isCheck && m.before.reaper.closesNow m.before.world

lemma Move.isCheck_iff (m : Move) : m.isCheck = true ↔ m.act = .check := by
  cases h : m.act <;> simp [isCheck, h]

lemma Move.endsClose_iff (m : Move) : m.endsClose = true ↔ m.act = .closed := by
  cases h : m.act <;> simp [endsClose, h]

lemma checks_cons (m : Move) (ms : List Move) :
    checks (m :: ms) = checks ms + m.isCheck.toNat := by
  cases h : m.isCheck <;> simp [checks, h]

lemma lastReport_of_accepted (h : m.accepted = true) :
    lastReport first (m :: ms) = some m.instant := by
  rw [lastReport, h]
  rfl

/-- What is neither a report nor the end of a close leaves the last report as it was. -/
lemma lastReport_cons (haccepted : m.accepted = false) (hends : m.endsClose = false) :
    lastReport first (m :: ms) = lastReport first ms := by
  rw [lastReport, haccepted, hends]
  rfl

lemma reportedSinceCheck_check : reportedSinceCheck (⟨s, .check⟩ :: ms) = false := rfl

lemma reportedSinceCheck_cons (h : m.isCheck = false) :
    reportedSinceCheck (m :: ms) = (m.accepted || reportedSinceCheck ms) := by
  simp [reportedSinceCheck, h]

/-- Without a report of an open tunnel the last one stays as it was, even if a close ends. -/
lemma lastReport_append {between : List Move} (hpast : reportedSinceCheck past = false)
    (h : ∀ m ∈ between, m.accepted = false) :
    reportedSinceCheck (between ++ past) = false ∧
      lastReport first (between ++ past) = lastReport first past := by
  induction between with
  | nil => exact ⟨hpast, rfl⟩
  | cons m between ih =>
    obtain ⟨hsince, hlast⟩ := ih fun m' hm' => h m' (List.mem_cons_of_mem m hm')
    have haccepted := h m List.mem_cons_self
    constructor
    · cases hcheck : m.isCheck with
      | true => simp [reportedSinceCheck, hcheck]
      | false => rw [List.cons_append, reportedSinceCheck_cons hcheck, haccepted, hsince]; rfl
    · rw [List.cons_append, lastReport, haccepted, hsince, Bool.and_false, Bool.or_false]
      exact hlast

/-- The last report counts from the instant of a report, of the end of a close, or of the start. -/
lemma mem_of_lastReport {report : Nat} (h : lastReport first ms = some report) :
    (∃ m ∈ ms, (m.accepted = true ∨ m.act = .closed) ∧ m.instant = report) ∨
      first = some report := by
  induction ms with
  | nil => exact .inr h
  | cons m past ih =>
    rw [lastReport] at h
    split at h
    · next hcounts =>
      refine .inl ⟨m, List.mem_cons_self, ?_, Option.some.inj h⟩
      rcases Bool.or_eq_true_iff.mp hcounts with haccepted | hends
      · exact .inl haccepted
      · exact .inr (m.endsClose_iff.mp (Bool.and_eq_true_iff.mp hends).1)
    · rcases ih h with ⟨m', hm', hcounts⟩ | hfirst
      · exact .inl ⟨m', List.mem_cons_of_mem m hm', hcounts⟩
      · exact .inr hfirst

/-- Only a check has the tunnel closed. -/
lemma closeTunnel_mem_iff (m : Move) : .closeTunnel ∈ m.events ↔ m.closes = true := by
  obtain ⟨s, act⟩ := m
  cases act with
  | report =>
    simp only [Move.events, Scene.eventsOf, Move.closes, Move.isCheck]
    split <;> simp
  | check =>
    simp only [Move.events, Scene.eventsOf, Move.closes, Move.isCheck, checkEvents]
    cases hl : s.reaper.lastActivity with
    | none => simp [closesNow, hl, idleExpired]
    | some last =>
      by_cases ht : s.world.hasTunnel = true
      · cases hc : s.reaper.closesNow s.world <;> simp [ht]
      · simp [ht, closesNow]
  | closed =>
    simp only [Move.events, Scene.eventsOf, Move.closes, Move.isCheck,
      TunnelControl.closingRecords]
    split <;> simp
  | _ => simp [Move.events, Scene.eventsOf, Move.closes, Move.isCheck]

/-! ## What a run can be asked for -/

/-- What a check has closed is closed, or has failed to be, before the next check is due. -/
def ClosedInTime (ms : List Move) : Prop :=
  ∀ m ∈ ms, m.closes = true →
    m.before.world.closeDelay * nanosPerMilli < m.before.reaper.interval.nanos

instance (ms : List Move) : Decidable (ClosedInTime ms) :=
  inferInstanceAs (Decidable (∀ m ∈ ms, m.closes = true →
    m.before.world.closeDelay * nanosPerMilli < m.before.reaper.interval.nanos))

/-- No use of an open tunnel is reported at the instant of a check. -/
def ReportedApart (ms : List Move) : Prop :=
  ∀ m ∈ ms, m.isCheck = true → ∀ m' ∈ ms, m'.accepted = true → m'.instant ≠ m.instant

instance (ms : List Move) : Decidable (ReportedApart ms) :=
  inferInstanceAs (Decidable (∀ m ∈ ms, m.isCheck = true → ∀ m' ∈ ms, m'.accepted = true →
    m'.instant ≠ m.instant))

/-- What is asked of every move so that the history tells what the reaper does. -/
structure Orderly (ms : List Move) : Prop where
  prompt : Prompt ms
  inTime : ClosedInTime ms
  apart : ReportedApart ms

instance (ms : List Move) : Decidable (Orderly ms) :=
  decidable_of_iff (Prompt ms ∧ ClosedInTime ms ∧ ReportedApart ms)
    ⟨fun h => ⟨h.1, h.2.1, h.2.2⟩, fun h => ⟨h.prompt, h.inTime, h.apart⟩⟩

lemma Orderly.of_suffix (h : Orderly ms) (hm : past <:+ ms) : Orderly past where
  prompt m' hm' := h.prompt m' (hm.subset hm')
  inTime m' hm' := h.inTime m' (hm.subset hm')
  apart m' hm' hcheck m'' hm'' := h.apart m' (hm.subset hm') hcheck m'' (hm.subset hm'')

lemma Orderly.of_cons (h : Orderly (m :: ms)) : Orderly ms := h.of_suffix (List.suffix_cons m ms)

/-- A reaper that has just been started. -/
def started (reaper : Reaper) (world : World) : Scene := .ofPair (reaper.start world)

/-! ## What never changes -/

/-- The reaper keeps its interval and its timeout, and no transport appears or disappears. -/
structure Alike (s s' : Scene) : Prop where
  interval : s'.reaper.interval = s.reaper.interval
  timeout : s'.reaper.timeout = s.reaper.timeout
  hasTunnel : s'.world.hasTunnel = s.world.hasTunnel

lemma alike_after (s : Scene) (act : Act) : Alike s (s.after act) := by
  cases act with
  | report =>
    simp only [Scene.after, World.reportActivity]
    split <;> exact ⟨rfl, rfl, rfl⟩
  | check =>
    cases hw : s.reaper.phase with
    | watching ticker =>
      rw [Scene.after_check hw]
      exact ⟨rfl, rfl, rfl⟩
    | _ =>
      simp only [Scene.after, hw]
      exact ⟨rfl, rfl, rfl⟩
  | closed =>
    cases hc : s.reaper.phase with
    | closing ticker done =>
      rw [Scene.after_closed hc]
      exact ⟨rfl, rfl, rfl⟩
    | _ =>
      simp only [Scene.after, hc]
      exact ⟨rfl, rfl, rfl⟩
  | _ => exact ⟨rfl, rfl, rfl⟩

lemma Run.alike (hr : Run s₀ ms s) : Alike s₀ s := by
  refine hr.invariant (Alike s₀) ⟨rfl, rfl, rfl⟩ ?_
  intro s act ih _
  have h := alike_after s act
  exact ⟨h.interval.trans ih.interval, h.timeout.trans ih.timeout,
    h.hasTunnel.trans ih.hasTunnel⟩

/-! ## The schedule of the checks -/

/-- Whether the reaper was told to end at an earlier instant. -/
def CancelledBefore (ms : List Move) (instant : Nat) : Prop :=
  ∃ m ∈ ms, m.act = .cancel ∧ m.instant < instant

/-- The next check is the next point of the grid, or there will be none. -/
structure OnSchedule (period start : Nat) (ms : List Move) (s : Scene) : Prop where
  watching : ∀ ticker, s.reaper.phase = .watching ticker →
    ticker = .grid period start (checks ms) ∧ s.world.now ≤ start + period * (checks ms + 1) ∧
      (CancelledBefore ms s.world.now → s.world.now < start + period * (checks ms + 1))
  closing : ∀ ticker done, s.reaper.phase = .closing ticker done →
    ticker = .grid period start (checks ms) ∧ s.world.now ≤ done ∧
      done < start + period * (checks ms + 1)
  started : s.reaper.phase ≠ .notStarted
  ended : s.reaper.phase = .ended → s.world.cancelled = true
  cancelled : (∃ m ∈ ms, m.act = .cancel) → s.world.cancelled = true

/-- What leaves the phase of the reaper and the clock alone does not change the schedule. -/
lemma OnSchedule.frame (ho : OnSchedule period start ms s)
    (hcheck : (Move.mk s act).isCheck = false)
    (hphase : (s.after act).reaper.phase = s.reaper.phase)
    (hnow : (s.after act).world.now = s.world.now)
    (hcancelled : s.world.cancelled = true ∨ act = .cancel →
      (s.after act).world.cancelled = true) :
    OnSchedule period start (⟨s, act⟩ :: ms) (s.after act) := by
  have hchecks : checks (⟨s, act⟩ :: ms) = checks ms := by
    rw [checks_cons, hcheck]
    rfl
  -- a command of this instant is no earlier one
  have hbefore : CancelledBefore (⟨s, act⟩ :: ms) s.world.now → CancelledBefore ms s.world.now := by
    rintro ⟨m, hm, hact, hlt⟩
    rcases List.mem_cons.mp hm with rfl | hm
    · exact absurd hlt (Nat.lt_irrefl _)
    · exact ⟨m, hm, hact, hlt⟩
  constructor
  · intro ticker hw
    rw [hphase] at hw
    rw [hchecks, hnow]
    obtain ⟨hticker, hle, hlt⟩ := ho.watching ticker hw
    exact ⟨hticker, hle, fun h => hlt (hbefore h)⟩
  · intro ticker done hc
    rw [hphase] at hc
    rw [hchecks, hnow]
    exact ho.closing ticker done hc
  · rw [hphase]
    exact ho.started
  · rw [hphase]
    exact fun hended => hcancelled (.inl (ho.ended hended))
  · rintro ⟨m, hm, hact⟩
    rcases List.mem_cons.mp hm with rfl | hm
    · exact hcancelled (.inr hact)
    · exact hcancelled (.inl (ho.cancelled ⟨m, hm, hact⟩))

/-- A check is the next point of the grid. -/
lemma OnSchedule.now_of_check (ho : OnSchedule period start ms s)
    (hcan : s.can .check = true) : s.world.now = start + period * (checks ms + 1) := by
  obtain ⟨ticker, hw, hdue⟩ := Scene.can_check_iff.mp hcan
  obtain ⟨rfl, hle, -⟩ := ho.watching ticker hw
  exact Nat.le_antisymm hle (Ticker.isDue_grid.mp hdue)

/-- Until the reaper is told to end, no check is left out. -/
lemma OnSchedule.now_le (ho : OnSchedule period start ms s) (hrunning : s.world.cancelled = false) :
    s.world.now ≤ start + period * (checks ms + 1) := by
  cases hw : s.reaper.phase with
  | notStarted => exact absurd hw ho.started
  | watching ticker => exact (ho.watching ticker hw).2.1
  | closing ticker done =>
    obtain ⟨-, hle, hlt⟩ := ho.closing ticker done hw
    exact Nat.le_of_lt (Nat.lt_of_le_of_lt hle hlt)
  | ended =>
    rw [ho.ended hw] at hrunning
    cases hrunning

/-- No move but the command itself tells the reaper to end. -/
lemma OnSchedule.cancelled_of_cons (ho : OnSchedule period start ms s) (hact : m.act ≠ .cancel)
    (h : ∃ m' ∈ m :: ms, m'.act = .cancel) : s.world.cancelled = true := by
  obtain ⟨m', hm', hcancel⟩ := h
  rcases List.mem_cons.mp hm' with rfl | hm'
  · exact absurd hcancel hact
  · exact ho.cancelled ⟨m', hm', hcancel⟩

/-- A check moves on to the next point of the grid, and a close has ended before. -/
lemma OnSchedule.check (ho : OnSchedule period start ms s) (hcan : s.can .check = true)
    (hpos : 0 < period) (hdelay : s.reaper.closesNow s.world = true →
      s.world.closeDelay < period) :
    OnSchedule period start (⟨s, .check⟩ :: ms) (s.after .check) := by
  have hnow := ho.now_of_check hcan
  have hchecks : checks (⟨s, .check⟩ :: ms) = checks ms + 1 := checks_cons _ _
  obtain ⟨ticker, hw, -⟩ := Scene.can_check_iff.mp hcan
  obtain ⟨rfl, hle, -⟩ := ho.watching ticker hw
  have htick : (Ticker.grid period start (checks ms)).tick s.world.nanos =
      .grid period start (checks ms + 1) := Ticker.tick_grid hle
  have hnext : start + period * (checks ms + 1 + 1) = s.world.now + period := by
    rw [hnow, Nat.mul_succ period (checks ms + 1), Nat.add_assoc]
  rw [Scene.after_check hw, htick, phaseAfter]
  constructor
  · intro ticker hwatching
    rw [hchecks, hnext]
    have hlt : s.world.now < s.world.now + period := Nat.lt_add_of_pos_right hpos
    cases hcloses : s.reaper.closesNow s.world with
    | true => simp [hcloses] at hwatching
    | false =>
      simp only [hcloses] at hwatching
      cases hwatching
      exact ⟨rfl, Nat.le_of_lt hlt, fun _ => hlt⟩
  · intro ticker done hclosing
    rw [hchecks, hnext]
    cases hcloses : s.reaper.closesNow s.world with
    | true =>
      simp only [hcloses] at hclosing
      cases hclosing
      exact ⟨rfl, Nat.le_add_right _ _, Nat.add_lt_add_left (hdelay hcloses) _⟩
    | false => simp [hcloses] at hclosing
  · split <;> simp
  · split <;> simp
  · exact ho.cancelled_of_cons (by simp)

/-- While time passes, the next check comes no later than it is due. -/
lemma OnSchedule.wait {instant : Nat} (ho : OnSchedule period start ms s)
    (hmoves : s.reaper.moves s.world = [])
    (hwake : ∀ wake, s.reaper.wake = some wake → instant ≤ wake) :
    OnSchedule period start (⟨s, .wait instant⟩ :: ms) (s.after (.wait instant)) := by
  have hchecks : checks (⟨s, .wait instant⟩ :: ms) = checks ms := checks_cons _ _
  constructor
  · intro ticker hw
    have hwatching : s.reaper.phase = .watching ticker := hw
    obtain ⟨rfl, hle, -⟩ := ho.watching ticker hwatching
    have hdue : instant ≤ start + period * (checks ms + 1) := by
      rw [← Ticker.dueAt_grid]
      exact hwake _ (by rw [wake, hwatching])
    rw [hchecks]
    refine ⟨rfl, hdue, ?_⟩
    -- a reaper that was told to end would have ended before time passes
    rintro ⟨m, hm, hact, -⟩
    have hcancelled := ho.cancelled_of_cons (by simp) ⟨m, hm, hact⟩
    simp [moves, hwatching, hcancelled] at hmoves
  · intro ticker done hc
    have hclosing : s.reaper.phase = .closing ticker done := hc
    obtain ⟨hticker, -, hlt⟩ := ho.closing ticker done hclosing
    rw [hchecks]
    exact ⟨hticker, hwake _ (by rw [wake, hclosing]), hlt⟩
  · exact ho.started
  · exact ho.ended
  · exact ho.cancelled_of_cons (by simp)

/-- The reaper keeps to its schedule. -/
lemma OnSchedule.after (ho : OnSchedule period start ms s) (hcan : s.can act = true)
    (hpos : 0 < period) (hinterval : s.reaper.interval.nanos = period * nanosPerMilli)
    (horderly : Orderly (⟨s, act⟩ :: ms)) :
    OnSchedule period start (⟨s, act⟩ :: ms) (s.after act) := by
  cases act with
  | report =>
    refine ho.frame rfl rfl (now_after s .report) ?_
    rintro (hcancelled | hact)
    · simp only [Scene.after, World.reportActivity]
      split <;> exact hcancelled
    · cases hact
  | cancel => exact ho.frame rfl rfl rfl fun _ => rfl
  | dropHandles | transport | closeDelay | takeReport =>
    refine ho.frame rfl rfl rfl ?_
    rintro (hcancelled | hact)
    · exact hcancelled
    · cases hact
  | check =>
    refine ho.check hcan hpos ?_
    intro hcloses
    have hdelay := horderly.inTime _ List.mem_cons_self
      (by simp [Move.closes, Move.isCheck, hcloses])
    rw [hinterval] at hdelay
    exact Nat.lt_of_mul_lt_mul_right hdelay
  | closed =>
    have hchecks : checks (⟨s, .closed⟩ :: ms) = checks ms := checks_cons _ _
    obtain ⟨ticker, done, hc, -⟩ := Scene.can_closed_iff.mp hcan
    obtain ⟨rfl, hle, hlt⟩ := ho.closing ticker done hc
    have hnow := Nat.lt_of_le_of_lt hle hlt
    rw [Scene.after_closed hc]
    constructor
    · intro ticker hw
      cases hw
      rw [hchecks]
      exact ⟨rfl, Nat.le_of_lt hnow, fun _ => hnow⟩
    · intro ticker done hclosing
      cases hclosing
    · simp
    · simp
    · exact ho.cancelled_of_cons (by simp)
  | leave =>
    have hcancelled : s.world.cancelled = true := by
      simp only [Scene.can, Bool.and_eq_true] at hcan
      exact hcan.2
    constructor
    · intro ticker hw
      cases hw
    · intro ticker done hc
      cases hc
    · simp [Scene.after, Scene.ofPair, leave]
    · exact fun _ => hcancelled
    · exact fun _ => hcancelled
  | wait instant =>
    obtain ⟨hmoves, hwake⟩ := horderly.prompt.rests
    exact ho.wait hmoves hwake

lemma every_eq_grid_of_interval (hinterval : reaper.interval.nanos = period * nanosPerMilli) :
    Ticker.every reaper.interval.nanos world.nanos = .grid period world.now 0 := by
  rw [hinterval]
  exact Ticker.every_eq_grid period world.now

/-- The schedule of every run in which nothing is late and no close takes too long. -/
theorem Run.onSchedule (hpos : 0 < period)
    (hinterval : reaper.interval.nanos = period * nanosPerMilli)
    (hr : Run (started reaper world) ms s) (ho : Orderly ms) :
    OnSchedule period world.now ms s := by
  induction hr with
  | nil =>
    have hpositive : 0 < period * (0 + 1) := Nat.mul_pos hpos (Nat.succ_pos 0)
    constructor
    · intro ticker hw
      cases hw
      refine ⟨every_eq_grid_of_interval hinterval, Nat.le_add_right _ _, fun _ => ?_⟩
      exact Nat.lt_add_of_pos_right hpositive
    · intro ticker done hc
      cases hc
    · simp [started, Scene.ofPair, Reaper.start]
    · simp [started, Scene.ofPair, Reaper.start]
    · simp
  | cons hr h ih =>
    have hsame : _ = reaper.interval := hr.alike.interval
    refine (ih ho.of_cons).after h hpos ?_ ho
    rw [hsame]
    exact hinterval

/-- Every close ends before the next check is due. -/
lemma Run.instant_lt_of_closed (hpos : 0 < period)
    (hinterval : reaper.interval.nanos = period * nanosPerMilli)
    (hr : Run (started reaper world) ms s) (ho : Orderly ms) (hm : m ∈ ms)
    (hact : m.act = .closed) : m.instant < world.now + period * (checks ms + 1) := by
  obtain ⟨later, past, rfl⟩ := List.append_of_mem hm
  have hsuffix : past <:+ later ++ m :: past :=
    (List.suffix_cons m past).trans (List.suffix_append later _)
  obtain ⟨hrun, hcan⟩ := hr.of_suffix (List.suffix_append later (m :: past))
  rw [hact] at hcan
  obtain ⟨ticker, done, hc, -⟩ := Scene.can_closed_iff.mp hcan
  obtain ⟨-, hle, hlt⟩ :=
    (hrun.onSchedule hpos hinterval (ho.of_suffix hsuffix)).closing ticker done hc
  have hchecks : checks past ≤ checks (later ++ m :: past) := hsuffix.sublist.countP_le
  calc m.instant < world.now + period * (checks past + 1) := Nat.lt_of_le_of_lt hle hlt
    _ ≤ world.now + period * (checks (later ++ m :: past) + 1) :=
      Nat.add_le_add_left (Nat.mul_le_mul_left _ (Nat.add_le_add_right hchecks 1)) _

/-- At a check, the last report counts from an earlier instant. -/
lemma Run.lastReport_lt {report : Nat} (hpos : 0 < period)
    (hinterval : reaper.interval.nanos = period * nanosPerMilli)
    (hr : Run (started reaper world) ms s) (ho : Orderly ms) (hcan : s.can .check = true)
    (hapart : ∀ m ∈ ms, m.accepted = true → m.instant ≠ s.world.now)
    (hlast : lastReport (firstReport world) ms = some report) : report < s.world.now := by
  have hnow := (hr.onSchedule hpos hinterval ho).now_of_check hcan
  rcases mem_of_lastReport hlast with ⟨m, hm, haccepted | hact, rfl⟩ | hfirst
  · exact Nat.lt_of_le_of_ne (hr.instant_bounds.2 m hm).2 (hapart m hm haccepted)
  · rw [hnow]
    exact hr.instant_lt_of_closed hpos hinterval ho hm hact
  · unfold firstReport at hfirst
    split at hfirst
    · rw [← Option.some.inj hfirst, hnow]
      exact Nat.lt_add_of_pos_right (Nat.mul_pos hpos (Nat.succ_pos _))
    · cases hfirst

/-! ## What the reaper remembers -/

/-- A report of this instant waits for the reaper, or it remembers the last one; and while it
closes the tunnel, what was reported meanwhile waits. -/
structure Remembers (first : Option Nat) (ms : List Move) (s : Scene) : Prop where
  watched : s.reaper.isRunning = true → s.world.control.activity.watched = true
  waits : s.reaper.isWatching = true → s.world.control.activity.pending = true →
    lastReport first ms = some s.world.now
  taken : s.reaper.isRunning = true → s.world.control.activity.pending = false →
    s.reaper.lastActivity = (lastReport first ms).map (· * nanosPerMilli)
  closing : s.reaper.isRunning = true → s.reaper.isWatching = false →
    reportedSinceCheck ms = s.world.control.activity.pending

/-- What leaves the reaper and the slot alone does not change what is remembered. -/
lemma Remembers.frame (hk : Remembers first ms s) (haccepted : (Move.mk s act).accepted = false)
    (hends : (Move.mk s act).endsClose = false) (hcheck : (Move.mk s act).isCheck = false)
    (hreaper : (s.after act).reaper = s.reaper)
    (hwatched : (s.after act).world.control.activity.watched = s.world.control.activity.watched)
    (hpending : (s.after act).world.control.activity.pending = s.world.control.activity.pending)
    (hnow : (s.after act).world.now = s.world.now) :
    Remembers first (⟨s, act⟩ :: ms) (s.after act) := by
  have hlast : lastReport first (⟨s, act⟩ :: ms) = lastReport first ms :=
    lastReport_cons haccepted hends
  constructor
  · rw [hreaper, hwatched]
    exact hk.watched
  · rw [hreaper, hpending, hlast, hnow]
    exact hk.waits
  · rw [hreaper, hpending, hlast]
    exact hk.taken
  · rw [hreaper, hpending, reportedSinceCheck_cons hcheck, haccepted, Bool.false_or]
    exact hk.closing

/-- The slot hears only of an open tunnel. -/
lemma control_reportActivity (world : World) :
    world.reportActivity.control =
      if world.hasTunnel && world.control.transport.isOpen then
        { world.control with activity := (world.control.activity.report true).1 }
      else world.control := by
  unfold World.reportActivity
  cases world.hasTunnel with
  | false => rfl
  | true => cases hopen : world.control.transport.isOpen <;> simp

/-- A report of an open tunnel waits to be taken. -/
lemma Remembers.report (hk : Remembers first ms s) (hcan : s.can .report = true) :
    Remembers first (⟨s, .report⟩ :: ms) (s.after .report) := by
  have hcontrol : (s.after .report).world.control =
      if (Move.mk s .report).accepted then
        { s.world.control with activity := (s.world.control.activity.report true).1 }
      else s.world.control := control_reportActivity s.world
  cases haccepted : (Move.mk s .report).accepted with
  | true =>
    rw [haccepted, if_pos rfl] at hcontrol
    have hpending : s.reaper.isRunning = true →
        (s.after .report).world.control.activity.pending = true := by
      intro hrunning
      rw [hcontrol]
      exact ActivitySlot.pending_report hcan (hk.watched hrunning)
    constructor
    · intro hrunning
      rw [hcontrol, ActivitySlot.watched_report]
      exact hk.watched hrunning
    · intro _ _
      rw [now_after]
      exact lastReport_of_accepted haccepted
    · intro hrunning hempty
      rw [hpending hrunning] at hempty
      cases hempty
    · intro hrunning _
      rw [hpending hrunning, reportedSinceCheck_cons rfl, haccepted, Bool.true_or]
  | false =>
    rw [haccepted, if_neg Bool.false_ne_true] at hcontrol
    exact hk.frame haccepted rfl rfl rfl (by rw [hcontrol]) (by rw [hcontrol])
      (now_after s .report)

/-- What is reported while the tunnel is closed counts from the end of that. -/
lemma Remembers.closed (hk : Remembers first ms s) (hcan : s.can .closed = true) :
    Remembers first (⟨s, .closed⟩ :: ms) (s.after .closed) := by
  obtain ⟨ticker, done, hc, -⟩ := Scene.can_closed_iff.mp hcan
  have hrunning : s.reaper.isRunning = true := by simp [isRunning, hc]
  have hsince : reportedSinceCheck ms = s.world.control.activity.pending :=
    hk.closing hrunning (by simp [isWatching, hc])
  have hlast : lastReport first (⟨s, .closed⟩ :: ms) =
      if s.world.control.activity.pending then some s.world.now else lastReport first ms := by
    rw [← hsince]
    rfl
  rw [Scene.after_closed hc]
  constructor
  · exact fun _ => hk.watched hrunning
  · intro _ hpending
    exact hlast.trans (if_pos hpending)
  · intro _ hempty
    have hnone : s.world.control.activity.pending = false := hempty
    rw [hlast, hnone, if_neg Bool.false_ne_true]
    exact hk.taken hrunning hempty
  · intro _ hbusy
    simp [isWatching] at hbusy

/-- No report waits at a check. -/
lemma Remembers.pending_eq_false (hk : Remembers first ms s) (hcan : s.can .check = true)
    (hbefore : ∀ report, lastReport first ms = some report → report < s.world.now) :
    s.world.control.activity.pending = false := by
  obtain ⟨ticker, hw, -⟩ := Scene.can_check_iff.mp hcan
  by_contra hpending
  have hlast := hk.waits (by simp [isWatching, hw]) (by simpa using hpending)
  exact Nat.lt_irrefl _ (hbefore _ hlast)

/-- A check changes nothing of what is remembered. -/
lemma Remembers.check (hk : Remembers first ms s) (hcan : s.can .check = true)
    (hempty : s.world.control.activity.pending = false) :
    Remembers first (⟨s, .check⟩ :: ms) (s.after .check) := by
  have hlast : lastReport first (⟨s, .check⟩ :: ms) = lastReport first ms :=
    lastReport_cons rfl rfl
  obtain ⟨ticker, hw, -⟩ := Scene.can_check_iff.mp hcan
  have hrunning : s.reaper.isRunning = true := by simp [isRunning, hw]
  rw [Scene.after_check hw]
  constructor
  · exact fun _ => hk.watched hrunning
  · intro _ hpending
    rw [World.control_emit, hempty] at hpending
    cases hpending
  · intro _ _
    rw [hlast]
    exact hk.taken hrunning hempty
  · intro _ _
    rw [reportedSinceCheck_check, World.control_emit, hempty]

/-- While nothing is late, the reaper learns of every report before time passes. -/
lemma Remembers.after (hk : Remembers first ms s) (hcan : s.can act = true)
    (hprompt : Prompt (⟨s, act⟩ :: ms)) (hbefore : act = .check →
      ∀ report, lastReport first ms = some report → report < s.world.now) :
    Remembers first (⟨s, act⟩ :: ms) (s.after act) := by
  cases act with
  | report => exact hk.report hcan
  | dropHandles | cancel | transport | closeDelay =>
    exact hk.frame rfl rfl rfl rfl rfl rfl rfl
  | takeReport =>
    -- the report is taken at the instant from which it counts
    simp only [Scene.can, Bool.and_eq_true] at hcan
    obtain ⟨hwatching, hpending⟩ := hcan
    have hrunning : s.reaper.isRunning = true := by
      obtain ⟨ticker, hw⟩ := isWatching_iff.mp hwatching
      simp [isRunning, hw]
    have hlast : lastReport first (⟨s, .takeReport⟩ :: ms) = some s.world.now :=
      hk.waits hwatching hpending
    constructor
    · exact fun _ => hk.watched hrunning
    · intro _ hpending
      cases hpending
    · intro _ _
      rw [hlast]
      rfl
    · intro _ hbusy
      have hsame : (s.after .takeReport).reaper.isWatching = s.reaper.isWatching := rfl
      rw [hsame, hwatching] at hbusy
      cases hbusy
  | check => exact hk.check hcan (hk.pending_eq_false hcan (hbefore rfl))
  | closed => exact hk.closed hcan
  | leave =>
    constructor <;>
      exact fun h => absurd h (by simp [Scene.after, Scene.ofPair, leave, isRunning, isWatching])
  | wait instant =>
    obtain ⟨hmoves, -⟩ := hprompt.rests
    have hlast : lastReport first (⟨s, .wait instant⟩ :: ms) = lastReport first ms :=
      lastReport_cons rfl rfl
    constructor
    · exact hk.watched
    · intro hwatching hpending
      -- a report that waits would be taken before time passes
      obtain ⟨ticker, hw⟩ := isWatching_iff.mp hwatching
      have hphase : s.reaper.phase = .watching ticker := hw
      have hwaits : s.world.control.activity.pending = true := hpending
      simp [moves, hphase, hwaits] at hmoves
    · rw [hlast]
      exact hk.taken
    · exact hk.closing

/-- In every run a report is remembered or waits. -/
theorem Run.remembers (hpos : 0 < period)
    (hinterval : reaper.interval.nanos = period * nanosPerMilli)
    (hmemory : reaper.lastActivity = none) (hwatched : world.control.activity.watched = true)
    (hr : Run (started reaper world) ms s) (ho : Orderly ms) :
    Remembers (firstReport world) ms s := by
  induction hr with
  | nil =>
    have hwaits : (started reaper world).world.control = world.control := rfl
    constructor
    · exact fun _ => hwatched
    · intro _ hpending
      rw [hwaits] at hpending
      exact if_pos hpending
    · intro _ hempty
      rw [hwaits] at hempty
      have hnone : lastReport (firstReport world) [] = none := by
        simp [lastReport, firstReport, hempty]
      rw [hnone]
      exact hmemory
    · intro _ hbusy
      simp [started, Scene.ofPair, Reaper.start, isWatching] at hbusy
  | @cons ms s act hr h ih =>
    refine (ih ho.of_cons).after h ho.prompt ?_
    rintro rfl report hlast
    refine hr.lastReport_lt hpos hinterval ho.of_cons h ?_ hlast
    intro m hm haccepted
    exact ho.apart _ List.mem_cons_self rfl m (List.mem_cons_of_mem _ hm) haccepted

/-! ## The history decides -/

/-- A check has the tunnel closed exactly if it is there, and the last report that it was in use
is at least the timeout ago. -/
lemma Remembers.closesNow_iff (hk : Remembers first ms s) (hcan : s.can .check = true)
    (hempty : s.world.control.activity.pending = false) :
    s.reaper.closesNow s.world = true ↔
      s.world.hasTunnel = true ∧ s.world.control.transport.isOpen = true ∧
        ∃ report, lastReport first ms = some report ∧
          s.reaper.timeout.nanos ≤ (s.world.now - report) * nanosPerMilli := by
  obtain ⟨ticker, hw, -⟩ := Scene.can_check_iff.mp hcan
  have hmemory := hk.taken (by simp [isRunning, hw]) hempty
  rw [closesNow, Bool.and_eq_true, Bool.and_eq_true, and_assoc, hmemory]
  refine and_congr_right fun _ => and_congr_right fun _ => ?_
  cases hlast : lastReport first ms with
  | none => simp [idleExpired]
  | some report =>
    simp only [idleExpired, Option.map_some, World.nanos, Nat.sub_mul, Option.some.injEq,
      exists_eq_left']
    exact decide_eq_true_iff

/-- What the history tells of a run of a reaper that was started in some world. -/
structure FollowsHistory (reaper : Reaper) (world : World) (period : Nat) (ms : List Move)
    (s : Scene) : Prop where
  /-- Each check is one interval after the one before, and there is none after the reaper was
  told to end. -/
  instants : ∀ m past, m :: past <:+ ms → m.act = .check →
    m.instant = world.now + period * (checks past + 1) ∧ ¬ CancelledBefore past m.instant
  /-- No check is left out. -/
  complete : s.world.cancelled = false → s.world.now ≤ world.now + period * (checks ms + 1)
  closes : ∀ m past, m :: past <:+ ms →
    (.closeTunnel ∈ m.events ↔
      m.act = .check ∧ world.hasTunnel = true ∧
        m.before.world.control.transport.isOpen = true ∧
          ∃ report, lastReport (firstReport world) past = some report ∧ report < m.instant ∧
            reaper.timeout.nanos ≤ (m.instant - report) * nanosPerMilli)
  /-- A report while no tunnel is there has no effect. -/
  ignored : ∀ m ∈ ms, m.act = .report → m.accepted = false → m.after = m.before
  /-- Neither has another report while one waits, but for the record of it. -/
  coalesced : ∀ m ∈ ms, m.act = .report → m.before.world.control.activity.pending = true →
    m.after.reaper = m.before.reaper ∧ m.after.world.control = m.before.world.control
  /-- If the tunnel is still there, each later check has it closed again, until its use is
  reported. -/
  retried : ∀ m between m' past, m :: (between ++ m' :: past) <:+ ms → m.act = .check →
    .closeTunnel ∈ m'.events → (∀ m'' ∈ between, m''.accepted = false) →
      m.before.world.control.transport.isOpen = true → .closeTunnel ∈ m.events
  /-- A tunnel that was never reported to be in use is never closed. -/
  unreported : firstReport world = none → (∀ m ∈ ms, m.accepted = false) →
    ∀ m ∈ ms, .closeTunnel ∉ m.events
  withoutTunnel : world.hasTunnel = false → ∀ m ∈ ms, .closeTunnel ∉ m.events

/-- A report that is not accepted leaves everything as it was. -/
lemma after_of_not_accepted (hact : m.act = .report) (haccepted : m.accepted = false) :
    m.after = m.before := by
  obtain ⟨s, act⟩ := m
  obtain rfl : act = .report := hact
  have hboth : (s.world.hasTunnel && s.world.control.transport.isOpen) = false := haccepted
  have hworld : s.world.reportActivity = s.world := by
    unfold World.reportActivity
    split
    · next htunnel =>
      rw [htunnel, Bool.true_and] at hboth
      simp only [hboth, ActivitySlot.report, Bool.not_false, Bool.or_true, if_true]
      rfl
    · rfl
  show { s with world := s.world.reportActivity } = s
  rw [hworld]

/-- The slot has room for one report. -/
lemma report_of_pending {slot : ActivitySlot} (h : slot.pending = true)
    (isOpen : Bool) : (slot.report isOpen).1 = slot := by
  unfold ActivitySlot.report
  rw [h]
  repeat' split
  all_goals first | rfl | simp_all

lemma after_of_coalesced (hact : m.act = .report)
    (hpending : m.before.world.control.activity.pending = true) :
    m.after.reaper = m.before.reaper ∧ m.after.world.control = m.before.world.control := by
  obtain ⟨s, act⟩ := m
  obtain rfl : act = .report := hact
  refine ⟨rfl, ?_⟩
  have hcontrol : (Move.mk s .report).after.world.control = _ := control_reportActivity s.world
  rw [hcontrol, report_of_pending hpending]
  split <;> rfl

/-- At a check, what the reaper knows is what the history tells. -/
lemma Run.closes_iff (hpos : 0 < period)
    (hinterval : reaper.interval.nanos = period * nanosPerMilli)
    (hmemory : reaper.lastActivity = none) (hwatched : world.control.activity.watched = true)
    (hr : Run (started reaper world) ms s) (ho : Orderly ms) (hcan : s.can .check = true)
    (hapart : ∀ m ∈ ms, m.accepted = true → m.instant ≠ s.world.now) :
    s.reaper.closesNow s.world = true ↔
      world.hasTunnel = true ∧ s.world.control.transport.isOpen = true ∧
        ∃ report, lastReport (firstReport world) ms = some report ∧ report < s.world.now ∧
          reaper.timeout.nanos ≤ (s.world.now - report) * nanosPerMilli := by
  have hk := hr.remembers hpos hinterval hmemory hwatched ho
  have hbefore : ∀ report, lastReport (firstReport world) ms = some report →
      report < s.world.now := fun _ => hr.lastReport_lt hpos hinterval ho hcan hapart
  have htunnel : s.world.hasTunnel = world.hasTunnel := hr.alike.hasTunnel
  have htimeout : s.reaper.timeout = reaper.timeout := hr.alike.timeout
  rw [hk.closesNow_iff hcan (hk.pending_eq_false hcan hbefore), htunnel, htimeout]
  refine and_congr_right fun _ => and_congr_right fun _ => exists_congr fun report => ?_
  exact and_congr_right fun hlast => (and_iff_right (hbefore report hlast)).symm

/-- A move that has the tunnel closed is told by the history. -/
lemma Run.closeTunnel_mem_iff (hpos : 0 < period)
    (hinterval : reaper.interval.nanos = period * nanosPerMilli)
    (hmemory : reaper.lastActivity = none) (hwatched : world.control.activity.watched = true)
    (hr : Run (started reaper world) ms s) (ho : Orderly ms) (hm : m :: past <:+ ms) :
    .closeTunnel ∈ m.events ↔
      m.act = .check ∧ world.hasTunnel = true ∧
        m.before.world.control.transport.isOpen = true ∧
          ∃ report, lastReport (firstReport world) past = some report ∧ report < m.instant ∧
            reaper.timeout.nanos ≤ (m.instant - report) * nanosPerMilli := by
  obtain ⟨hrun, hcan⟩ := hr.of_suffix hm
  rw [Reaper.closeTunnel_mem_iff, Move.closes, Bool.and_eq_true, Move.isCheck_iff]
  refine and_congr_right fun hact => ?_
  rw [hact] at hcan
  have hsuffix : past <:+ ms := (List.suffix_cons _ past).trans hm
  refine hrun.closes_iff hpos hinterval hmemory hwatched (ho.of_suffix hsuffix) hcan ?_
  intro m' hm' haccepted
  exact ho.apart m (hm.subset List.mem_cons_self) (m.isCheck_iff.mpr hact) m'
    (hsuffix.subset hm') haccepted

lemma exists_suffix_of_mem (hm : m ∈ ms) : ∃ past, m :: past <:+ ms := by
  obtain ⟨later, past, rfl⟩ := List.append_of_mem hm
  exact ⟨past, List.suffix_append later _⟩

/-- In every run of a reaper over a transport that can change at any time, checks are made exactly
at the positive multiples of the interval until it is told to end, and the history decides which
of them have the tunnel closed; if nothing is late, each close has ended when the next check is
due, and no use of the tunnel is reported at the instant of a check or while a close is in
flight. -/
theorem Run.follows_history (hpos : 0 < period)
    (hinterval : reaper.interval.nanos = period * nanosPerMilli)
    (hmemory : reaper.lastActivity = none) (hwatched : world.control.activity.watched = true)
    (hr : Run (started reaper world) ms s) (ho : Orderly ms) :
    FollowsHistory reaper world period ms s := by
  have hcloses : ∀ m past, m :: past <:+ ms → _ := fun m past hm =>
    hr.closeTunnel_mem_iff hpos hinterval hmemory hwatched ho hm
  constructor
  · intro m past hm hact
    obtain ⟨hrun, hcan⟩ := hr.of_suffix hm
    rw [hact] at hcan
    have hschedule := hrun.onSchedule hpos hinterval
      (ho.of_suffix ((List.suffix_cons _ past).trans hm))
    have hnow := hschedule.now_of_check hcan
    refine ⟨hnow, ?_⟩
    intro hcancelled
    obtain ⟨ticker, hw, -⟩ := Scene.can_check_iff.mp hcan
    exact absurd hnow (Nat.ne_of_lt ((hschedule.watching ticker hw).2.2 hcancelled))
  · exact (hr.onSchedule hpos hinterval ho).now_le
  · exact hcloses
  · exact fun m _ => after_of_not_accepted
  · exact fun m _ => after_of_coalesced
  · intro m between m' past hm hact hcalled hbetween hopen
    have hm' : m' :: past <:+ ms :=
      ((List.suffix_append between _).trans (List.suffix_cons m _)).trans hm
    obtain ⟨hact', htunnel, -, report, hlast, hlt, htimeout⟩ := (hcloses m' past hm').mp hcalled
    have hle : m'.instant ≤ m.instant :=
      ((hr.of_suffix hm).1.instant_bounds.2 m' (by simp)).2
    have hsame : lastReport (firstReport world) (between ++ m' :: past) = some report := by
      obtain ⟨s', act'⟩ := m'
      obtain rfl : act' = .check := hact'
      exact (lastReport_append reportedSinceCheck_check hbetween).2.trans hlast
    refine (hcloses m _ hm).mpr ⟨hact, htunnel, hopen, report, hsame, ?_, ?_⟩
    · exact Nat.lt_of_lt_of_le hlt hle
    · exact Nat.le_trans htimeout (Nat.mul_le_mul_right _ (Nat.sub_le_sub_right hle _))
  · intro hfirst hnone m hm hcalled
    obtain ⟨past, hsuffix⟩ := exists_suffix_of_mem hm
    obtain ⟨-, -, -, report, hlast, -⟩ := (hcloses m past hsuffix).mp hcalled
    have hsame : lastReport (firstReport world) past = firstReport world := by
      rw [← List.append_nil past]
      refine (lastReport_append rfl ?_).2
      exact fun m' hm' => hnone m' (hsuffix.subset (List.mem_cons_of_mem m hm'))
    rw [hsame, hfirst] at hlast
    cases hlast
  · intro htunnel m hm hcalled
    obtain ⟨past, hsuffix⟩ := exists_suffix_of_mem hm
    have hhas := ((hcloses m past hsuffix).mp hcalled).2.1
    rw [htunnel] at hhas
    cases hhas

/-! ## Three runs -/

/-- Checks are 30 seconds apart, and a tunnel is closed after 12 seconds without activity. -/
def attentive : Reaper where
  interval := .ofSeconds 30
  timeout := .ofSeconds 12

/-- A tunnel is there whose closing takes 20 seconds and fails. -/
def stubborn : World where
  control := ⟨{ isOpen := true, refusesClose := true }, {}⟩
  closeDelay := 20000

/-- Use is reported twice at once, once without effect since the tunnel is gone, and once while
the second close is in flight.  Then the handles are dropped. -/
def closingThrice : List Act :=
  [.wait 5000, .report, .report, .takeReport, .wait 6000, .transport { refusesClose := true },
    .wait 7000, .report, .wait 8000, .transport { isOpen := true, refusesClose := true },
    .wait 30000, .check, .wait 50000, .closed, .wait 60000, .check, .wait 70000, .report,
    .wait 80000, .closed, .takeReport, .wait 85000, .dropHandles, .wait 90000, .check,
    .wait 120000, .check, .wait 125000, .cancel, .wait 140000, .closed, .leave]

/-- A tunnel that is closed three times, since each close fails.  The check after 90 seconds does
not close it, because it was in use 20 seconds before, until the end of a close. -/
theorem closed_thrice : ∃ reaper world ms s, Run (started reaper world) ms s ∧ Orderly ms ∧
    (ms.filter Move.isCheck).map Move.instant = [120000, 90000, 60000, 30000] ∧
    (ms.filter Move.closes).map Move.instant = [120000, 60000, 30000] ∧
    FollowsHistory reaper world 30000 ms s := by
  obtain ⟨ms, s, hr, h⟩ := exists_run (started attentive stubborn) closingThrice
    (fun ms _ => decide (Orderly ms) &&
      (ms.filter Move.isCheck).map Move.instant == [120000, 90000, 60000, 30000] &&
      (ms.filter Move.closes).map Move.instant == [120000, 60000, 30000]) (by decide +kernel)
  simp only [Bool.and_eq_true, decide_eq_true_eq, beq_iff_eq] at h
  obtain ⟨⟨ho, hchecks⟩, hcloses⟩ := h
  exact ⟨attentive, stubborn, ms, s, hr, ho, hchecks, hcloses,
    Run.follows_history (by decide) (by decide) rfl rfl hr ho⟩

/-- Whether a move is a check, or something that is done to the reaper or the transport. -/
def Move.isTimed (m : Move) : Bool :=
  match m.act with
  | .takeReport | .closed | .leave | .wait _ => false
  | _ => true

/-- No two of them share an instant. -/
def Apart (ms : List Move) : Prop := ((ms.filter Move.isTimed).map Move.instant).Nodup

instance (ms : List Move) : Decidable (Apart ms) :=
  inferInstanceAs (Decidable ((ms.filter Move.isTimed).map Move.instant).Nodup)

/-- The close that the check after 30 seconds calls for takes 40 seconds and fails; then the next
check takes place at once. -/
def closingLate : List Act :=
  [.wait 7000, .report, .takeReport, .wait 30000, .check, .wait 70000, .closed, .check]

/-- Use is reported while the tunnel is closed, and taken at the end of that. -/
def reportedMeanwhile : List Act :=
  [.wait 5000, .report, .takeReport, .wait 30000, .check, .wait 45000, .report, .wait 50000,
    .closed, .takeReport, .wait 60000, .check]

/-- Although nothing is late, and no two of the checks and of the things done to the reaper or the
transport share an instant, a check that has to wait for the end of a close leaves the grid; and
although the last report was made long enough ago, a check does not close the tunnel, if that
report had to wait for the end of a close. -/
theorem not_followsHistory :
    (¬ ∀ reaper world period ms s, 0 < period →
      reaper.interval.nanos = period * nanosPerMilli → reaper.lastActivity = none →
        world.control.activity = {} → Run (started reaper world) ms s → Prompt ms → Apart ms →
          ∀ m past, m :: past <:+ ms → m.act = .check →
            m.instant = world.now + period * (checks past + 1)) ∧
    (¬ ∀ reaper world period ms s, 0 < period →
      reaper.interval.nanos = period * nanosPerMilli → reaper.lastActivity = none →
        world.control.activity = {} → Run (started reaper world) ms s → Prompt ms → Apart ms →
          ∀ m past, m :: past <:+ ms → m.act = .check →
            ((.closeTunnel ∈ m.events) ↔ m.before.world.control.transport.isOpen = true ∧
              ∃ report, past.find? Move.accepted = some report ∧
                reaper.timeout.nanos ≤ (m.instant - report.instant) * nanosPerMilli)) := by
  constructor
  · intro hgrid
    obtain ⟨ms, s, hr, h⟩ := exists_run
      (started attentive { stubborn with closeDelay := 40000 }) closingLate
      (fun ms _ => decide (Prompt ms) && decide (Apart ms) && ms.head?.any fun m =>
        m.isCheck && m.instant == 70000 && checks ms.tail == 1) (by decide +kernel)
    simp only [Bool.and_eq_true, decide_eq_true_eq] at h
    obtain ⟨⟨hp, ha⟩, hhead⟩ := h
    cases ms with
    | nil => cases hhead
    | cons m past =>
      simp only [List.head?_cons, Option.any_some, List.tail_cons, Bool.and_eq_true,
        beq_iff_eq] at hhead
      obtain ⟨⟨hcheck, hinstant⟩, hchecks⟩ := hhead
      have hlate := hgrid _ _ 30000 _ s (by decide) (by decide) rfl rfl hr hp ha m past
        List.suffix_rfl (m.isCheck_iff.mp hcheck)
      rw [hinstant, hchecks] at hlate
      cases hlate
  · intro hcloses
    obtain ⟨ms, s, hr, h⟩ := exists_run (started attentive stubborn) reportedMeanwhile
      (fun ms _ => decide (Prompt ms) && decide (Apart ms) && ms.head?.any fun m =>
        m.isCheck && !m.closes && m.before.world.control.transport.isOpen &&
          m.instant == 60000 && (ms.tail.find? Move.accepted).any (·.instant == 45000))
      (by decide +kernel)
    simp only [Bool.and_eq_true, decide_eq_true_eq] at h
    obtain ⟨⟨hp, ha⟩, hhead⟩ := h
    cases ms with
    | nil => cases hhead
    | cons m past =>
      simp only [List.head?_cons, Option.any_some, List.tail_cons, Bool.and_eq_true,
        Bool.not_eq_true', beq_iff_eq] at hhead
      obtain ⟨⟨⟨⟨hcheck, hleft⟩, hopen⟩, hinstant⟩, hfind⟩ := hhead
      obtain ⟨report, hreport, hreported⟩ := (Option.any_eq_true _ _).mp hfind
      have hcalled := (hcloses _ _ 30000 _ s (by decide) (by decide) rfl rfl hr hp ha m past
        List.suffix_rfl (m.isCheck_iff.mp hcheck)).mpr ⟨hopen, report, hreport, ?_⟩
      · rw [closeTunnel_mem_iff, hleft] at hcalled
        cases hcalled
      · rw [hinstant, eq_of_beq hreported]
        decide

end Reaper

end CheckIn
