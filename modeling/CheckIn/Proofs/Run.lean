/-
# Runs of a service

A `Run` is any sequence of steps, with the history of its moves, the last one first.  It says
nothing about when an act that can happen does happen: the loops may take turns in any order, and
a thing that is due may be done late.  In a `Prompt` run time passes only while neither loop has
anything to do, and never past an instant at which one of them has.

What holds of a service that has just been started and is preserved by every step holds of every
service that is reached (`Run.invariant`).  This and the other laws of runs are those of any system
(`run_iff`).  A concrete run is computed from the list of its acts (`run_of_perform`).
-/
import CheckIn.Proofs.Step
import CheckIn.Proofs.System

namespace CheckIn

/-- A cadence can be started if its interval is a duration, not zero, and ends before the clock. -/
lemma Cadence.start_eq_ok {clockEnd now : Nat} {seconds : Binary64} {timeout : Duration}
    {cadence : Cadence} (h : Cadence.start clockEnd now seconds timeout = .ok cadence) :
    ∃ period, Duration.ofBinary64? seconds = some period ∧ 0 < period.nanos ∧
      cadence = ⟨seconds, .every period.nanos now, timeout⟩ := by
  unfold Cadence.start Ticker.start at h
  cases hperiod : Duration.ofBinary64? seconds with
  | none =>
    rw [hperiod] at h
    cases h
  | some period =>
    rw [hperiod] at h
    by_cases hvalid : period.isZero ∨ clockEnd < now + period.nanos
    · simp only [if_pos hvalid] at h
      cases h
    · simp only [if_neg hvalid] at h
      refine ⟨period, rfl, ?_, ?_⟩
      · simp only [Duration.isZero, decide_eq_true_eq, not_or] at hvalid
        exact Nat.pos_of_ne_zero hvalid.1
      · cases h
        rfl

namespace Service

/-- One move of a run. -/
structure Move where
  /-- The service before the move. -/
  before : Service
  act : Act

namespace Move

/-- The service after a move. -/
def after (m : Move) : Service := m.before.after m.act

/-- When a move happens, in milliseconds. -/
def instant (m : Move) : Nat := m.before.world.now

/-- The events of a move, in order. -/
def events (m : Move) : List Event := m.before.eventsOf m.act

end Move

/-- A step leads to the service after its move. -/
lemma Step.eq_afterMove {s s' : Service} {act : Act} (h : Step s act s') :
    s' = (Move.mk s act).after := h.eq_after

/-- A run that begins with `s₀`: its moves, the last one first, and the service after them. -/
inductive Run (s₀ : Service) : List Move → Service → Prop
  | nil : Run s₀ [] s₀
  | cons {ms : List Move} {s s' : Service} {act : Act} (hr : Run s₀ ms s) (h : Step s act s') :
      Run s₀ (⟨s, act⟩ :: ms) s'

/-! ## Every run -/

lemma now_worldAfter (s : Service) (act : Act) :
    (s.worldAfter act).now = match act with
      | .wait instant => instant
      | _ => s.world.now := rfl

/-- No step goes back in time. -/
lemma Step.now_le {s s' : Service} {act : Act} (h : Step s act s') :
    s.world.now ≤ s'.world.now := by
  have hcan := h.can
  obtain rfl := h.eq_after
  rw [world_after, now_worldAfter]
  cases act with
  | wait instant => exact Nat.le_of_lt (by simpa [Service.can] using hcan)
  | _ => exact Nat.le_refl _

variable {s₀ s : Service} {ms past : List Move} {m m' : Move}

/-- A service as a system. -/
def system : System Service Act Move := ⟨Service.can, Service.after, Move.mk⟩

/-- The runs of a service are those of the system. -/
theorem run_iff : Run s₀ ms s ↔ system.Run s₀ ms s := by
  constructor
  · intro hr
    induction hr with
    | nil => exact .nil
    | cons _ h ih =>
      obtain ⟨hcan, rfl⟩ := step_iff.mp h
      exact ih.cons hcan
  · intro hr
    induction hr with
    | nil => exact .nil
    | cons _ hcan ih => exact ih.cons (step_iff.mpr ⟨hcan, rfl⟩)

/-- What holds at first and is preserved by every step holds of all that is reached. -/
theorem Run.invariant (I : Service → Prop) (h₀ : I s₀)
    (hstep : ∀ s act s', I s → Step s act s' → I s') (hr : Run s₀ ms s) : I s :=
  (run_iff.mp hr).invariant I h₀ fun s act hs hcan =>
    hstep s act _ hs (step_iff.mpr ⟨hcan, rfl⟩)

/-- The journal is the events of the moves. -/
theorem Run.journal_eq (hr : Run s₀ ms s) :
    s.world.journal =
      ms.flatMap (fun m => (m.events.map (m.instant, ·)).reverse) ++ s₀.world.journal :=
  (run_iff.mp hr).journal_eq (·.world.journal) _ fun s act _ => journal_after s act

/-- The moves up to one of them are a run, and the move is a step. -/
lemma Run.of_suffix (hr : Run s₀ ms s) (hm : m :: past <:+ ms) :
    Run s₀ past m.before ∧ Step m.before m.act m.after := by
  obtain ⟨before, act, hrun, hcan, rfl⟩ := (run_iff.mp hr).of_suffix hm
  exact ⟨run_iff.mpr hrun, step_iff.mpr ⟨hcan, rfl⟩⟩

/-- No act that can happen goes back in time. -/
lemma now_le_after (s : Service) (act : Act) (hcan : system.can s act = true) :
    s.world.now ≤ (system.after s act).world.now :=
  (step_iff.mpr ⟨hcan, rfl⟩ : Step s act (s.after act)).now_le

/-- A run begins at its first service and ends at its last one. -/
lemma Run.now_le (hr : Run s₀ ms s) : s₀.world.now ≤ s.world.now :=
  (run_iff.mp hr).now_le (·.world.now) now_le_after

/-- Every move of a run happens between its beginning and its end. -/
lemma Run.instant_bounds (hr : Run s₀ ms s) (hm : m ∈ ms) :
    s₀.world.now ≤ m.instant ∧ m.instant ≤ s.world.now :=
  (run_iff.mp hr).instant_bounds (·.world.now) Move.instant (fun _ _ => rfl) now_le_after hm

/-- What was done earlier was not done later. -/
lemma Run.instant_le (hr : Run s₀ ms s) (hm : m :: past <:+ ms) (hm' : m' ∈ past) :
    m'.instant ≤ m.instant :=
  ((hr.of_suffix hm).1.instant_bounds hm').2

/-! ## Runs in which nothing is late -/

/-- Whether neither loop has anything to do before a later instant. -/
def restsUntil (s : Service) (instant : Nat) : Bool :=
  s.pollMoves.isEmpty && (s.reaper.moves s.world).isEmpty &&
    (process.wake s).all (decide <| instant ≤ ·)

/-- Whether time passes only while nothing is due. -/
def Move.isPrompt (m : Move) : Bool :=
  match m.act with
  | .wait instant => m.before.restsUntil instant
  | _ => true

/-- Nothing is ever done late. -/
def Prompt (ms : List Move) : Prop := ∀ m ∈ ms, m.isPrompt = true

instance : Decidable (Prompt ms) := inferInstanceAs (Decidable (∀ m ∈ ms, m.isPrompt = true))

lemma Prompt.of_cons (h : Prompt (m :: ms)) : Prompt ms := (List.forall_mem_cons.mp h).2

lemma Prompt.of_suffix (h : Prompt ms) (hm : past <:+ ms) : Prompt past :=
  fun m' hm' => h m' (hm.subset hm')

/-- While time passes the poll loop has nothing to do. -/
lemma Prompt.pollMoves_eq_nil {instant : Nat} (h : Prompt (⟨s, .wait instant⟩ :: ms)) :
    s.pollMoves = [] := by
  have hrest := h _ List.mem_cons_self
  simp only [Move.isPrompt, restsUntil, Bool.and_eq_true, List.isEmpty_iff] at hrest
  exact hrest.1.1

/-- While time passes the reaper has nothing to do. -/
lemma Prompt.moves_eq_nil {instant : Nat} (h : Prompt (⟨s, .wait instant⟩ :: ms)) :
    s.reaper.moves s.world = [] := by
  have hrest := h _ List.mem_cons_self
  simp only [Move.isPrompt, restsUntil, Bool.and_eq_true, List.isEmpty_iff] at hrest
  exact hrest.1.2

lemma Prompt.le_wake {instant : Nat} (h : Prompt (⟨s, .wait instant⟩ :: ms)) :
    (∀ wake, s.pollWake = some wake → instant ≤ wake) ∧
      ∀ wake, s.reaper.wake = some wake → instant ≤ wake := by
  have hrest := h _ List.mem_cons_self
  simp only [Move.isPrompt, restsUntil, Bool.and_eq_true, process] at hrest
  have hle := hrest.2
  cases hpoll : s.pollWake with
  | none =>
    cases hreaper : s.reaper.wake with
    | none => simp
    | some wake => simpa [hpoll, hreaper, Service.earlier] using hle
  | some pollWake =>
    cases hreaper : s.reaper.wake with
    | none => simpa [hpoll, hreaper, Service.earlier] using hle
    | some wake => simpa [hpoll, hreaper, Service.earlier, Nat.le_min] using hle

/-! ## Concrete runs -/

/-- Does one act after the other, if all of them can happen. -/
def perform (s : Service) (ms : List Move) (acts : List Act) : Option (List Move × Service) :=
  system.perform s ms acts

lemma perform_nil (s : Service) (ms : List Move) : perform s ms [] = some (ms, s) := rfl

lemma perform_cons_eq_ite (s : Service) (ms : List Move) (act : Act) (acts : List Act) :
    perform s ms (act :: acts) =
      if s.can act then perform (s.after act) (⟨s, act⟩ :: ms) acts else none := rfl

/-- What is performed is a run. -/
theorem run_of_perform {acts : List Act} {later : List Move} {s' : Service} (hr : Run s₀ ms s)
    (h : perform s ms acts = some (later, s')) : Run s₀ later s' :=
  run_iff.mpr (System.run_of_perform (run_iff.mp hr) h)

/-! ## The beginning -/

/-- A service that has just been started. -/
def begun (config : Config) (setup : Setup) (world : World) (cadence : Cadence) : Service where
  world := { world with
    hasTunnel := setup.hasTunnel, control := ⟨setup.transport, {}⟩, cancelled := false }.note
      (.watchStarted Reaper.checkInterval config.inactivityTimeout)
  clockEnd := setup.clockEnd
  identity := config.tunnelIdentity
  decrypt := setup.decrypt
  collaborators := setup.collaborators
  source := setup.source
  cadence := cadence
  reaper :=
    { interval := Reaper.checkInterval
      timeout := config.inactivityTimeout
      phase := .watching (.every Reaper.checkInterval.nanos world.nanos) }

/-- A poll loop that has nothing to do does nothing. -/
lemma settlePoll_of_pollMoves_eq_nil (fuel : Nat) (h : s.pollMoves = []) :
    settlePoll fuel s = s := by
  cases fuel with
  | zero => rfl
  | succ fuel => simp [settlePoll, pollStep?, h]

/-- A reaper that has nothing to do does nothing. -/
lemma settleFor_of_moves_eq_nil {reaper : Reaper} {world : World} (fuel : Nat)
    (h : reaper.moves world = []) : reaper.settleFor fuel world = (reaper, world) := by
  cases fuel with
  | zero => rfl
  | succ fuel => simp [Reaper.settleFor, Reaper.step?, h]

lemma settle_of_moves_eq_nil (hpoll : s.pollMoves = [])
    (hreaper : s.reaper.moves s.world = []) : s.settle = s := by
  have hsettle : s.reaper.settle s.world = (s.reaper, s.world) :=
    settleFor_of_moves_eq_nil _ hreaper
  rw [settle, settlePoll_of_pollMoves_eq_nil _ hpoll, settleReaper, hsettle]
  rfl

/-- Nothing is due when a service is started. -/
lemma settle_begun (config : Config) (setup : Setup) (world : World) (cadence : Cadence) :
    settle (begun config setup world cadence) = begun config setup world cadence := by
  have hpoll : (begun config setup world cadence).pollMoves = [] := rfl
  have hreaper : (begun config setup world cadence).reaper.moves
      (begun config setup world cadence).world = [] := by
    have hdue : (Ticker.every Reaper.checkInterval.nanos world.nanos).isDue world.now = false := by
      have hpos : 0 < Reaper.checkInterval.nanos := by decide
      rw [Bool.eq_false_iff, Ne, Ticker.isDue_iff]
      show ¬ world.nanos + Reaper.checkInterval.nanos ≤ world.nanos
      omega
    simp [begun, Reaper.moves, World.note, World.emit, hdue]
  exact settle_of_moves_eq_nil hpoll hreaper

/-- Only an interval that cannot be polled at keeps a service from starting. -/
theorem spawnWithSource_eq (config : Config) (setup : Setup) (world : World) :
    spawnWithSource config setup world =
      ((Cadence.start setup.clockEnd world.nanos config.pollFrequency.toBinary64
        (setup.timeout.getD config.pollFrequency)).mapError AgentError.poll).map
          (begun config setup world) := by
  rcases hcadence : Cadence.start setup.clockEnd world.nanos config.pollFrequency.toBinary64
    (setup.timeout.getD config.pollFrequency) with error | cadence
  · simp only [spawnWithSource, hcadence]
    rfl
  · have hsettle := settle_begun config setup world cadence
    simp only [spawnWithSource, hcadence]
    exact congrArg Except.ok hsettle

/-- A service that could be started has the cadence of its configuration. -/
lemma exists_cadence_of_spawn {config : Config} {setup : Setup} {world : World}
    (hs : spawnWithSource config setup world = .ok s₀) :
    ∃ cadence, Cadence.start setup.clockEnd world.nanos config.pollFrequency.toBinary64
        (setup.timeout.getD config.pollFrequency) = .ok cadence ∧
      s₀ = begun config setup world cadence := by
  rw [spawnWithSource_eq] at hs
  rcases hcadence : Cadence.start setup.clockEnd world.nanos config.pollFrequency.toBinary64
    (setup.timeout.getD config.pollFrequency) with error | cadence
  · rw [hcadence] at hs
    cases hs
  · rw [hcadence] at hs
    exact ⟨cadence, rfl, (Except.ok.inj hs).symm⟩

/-- The cadence of a service that has just been started. -/
lemma exists_period_of_spawn {config : Config} {setup : Setup} {world : World}
    (hs : spawnWithSource config setup world = .ok s₀) :
    ∃ period, Duration.ofBinary64? config.pollFrequency.toBinary64 = some period ∧
      0 < period.nanos ∧ s₀.cadence =
        ⟨config.pollFrequency.toBinary64, .every period.nanos world.nanos,
          setup.timeout.getD config.pollFrequency⟩ := by
  obtain ⟨cadence, hcadence, rfl⟩ := exists_cadence_of_spawn hs
  exact Cadence.start_eq_ok hcadence

/-- A concrete run of a service that has just been started. -/
lemma exists_run (config : Config) (setup : Setup) (world : World) (acts : List Act)
    (holds : Service → List Move → Service → Bool)
    (h : (match spawnWithSource config setup world with
      | .ok s₀ => (perform s₀ [] acts).any fun r => holds s₀ r.1 r.2
      | .error _ => false) = true) :
    ∃ s₀ ms s, spawnWithSource config setup world = .ok s₀ ∧ Run s₀ ms s ∧
      holds s₀ ms s = true := by
  rcases hspawn : spawnWithSource config setup world with error | s₀
  · rw [hspawn] at h
    cases h
  · rw [hspawn] at h
    obtain ⟨⟨ms, s⟩, hrun, hholds⟩ := (Option.any_eq_true _ _).mp h
    exact ⟨s₀, ms, s, rfl, run_of_perform .nil hrun, hholds⟩

end Service

end CheckIn
