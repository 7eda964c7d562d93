/-
# Runs of a reaper on its own

A reaper can run without a service, over any transport.  What happens then is what the reaper
does, the reports that it gets, what changes in the transport without a call of the reaper, and
the passing of time.  `Act` names all of this; `Scene.can` says when an act can happen, and
`Scene.after` what it leaves behind.  The acts of the reaper are exactly the members of
`Reaper.moves` (`Scene.mem_moves_iff`), in any order in which they can be done.

As for a service, a `Run` is any sequence of acts that can happen, and in a `Prompt` run nothing
that is due is done late.  The laws of runs are those of any system (`run_iff`).
-/
import CheckIn.Proofs.Step
import CheckIn.Proofs.System

namespace CheckIn

namespace Reaper

/-- A reaper in its world. -/
structure Scene where
  reaper : Reaper
  world : World

/-- What can happen to a reaper and to what it watches. -/
inductive Act
  /-- Somebody who holds a handle reports activity of the tunnel. -/
  | report
  /-- All handles for reports are dropped. -/
  | dropHandles
  /-- The reaper is told to end. -/
  | cancel
  /-- The transport becomes another one, without a call of the reaper. -/
  | transport (next : Transport)
  /-- Closing takes so many milliseconds from now on. -/
  | closeDelay (millis : Nat)
  /-- The reaper takes a report of activity. -/
  | takeReport
  /-- The reaper looks at the tunnel. -/
  | check
  /-- Closing comes to its end. -/
  | closed
  /-- The reaper ends. -/
  | leave
  /-- Time passes until an instant in milliseconds. -/
  | wait (instant : Nat)

/-- The acts of the reaper itself. -/
def Act.isReaping : Act → Bool
  | takeReport | check | closed | leave => true
  | _ => false

namespace Scene

variable {s : Scene} {ticker : Ticker}

/-- Whether an act can happen. -/
def can (s : Scene) : Act → Bool
  | .report => s.world.control.activity.held
  | .dropHandles | .cancel | .transport _ | .closeDelay _ => true
  | .takeReport => s.reaper.isWatching && s.world.control.activity.pending
  | .check =>
    match s.reaper.phase with
    | .watching ticker => ticker.isDue s.world.now
    | _ => false
  | .closed =>
    match s.reaper.phase with
    | .closing _ done => decide (done ≤ s.world.now)
    | _ => false
  | .leave => s.reaper.isWatching && s.world.cancelled
  | .wait instant => decide (s.world.now < instant)

/-- What a function of the reaper leaves behind. -/
def ofPair (next : Reaper × World) : Scene := ⟨next.1, next.2⟩

/-- What an act leaves behind. -/
def after (s : Scene) : Act → Scene
  | .report => { s with world := s.world.reportActivity }
  | .dropHandles => { s with world := s.world.stopReporting }
  | .cancel => { s with world := { s.world with cancelled := true } }
  | .transport next => { s with world := s.world.changeTransport fun _ => next }
  | .closeDelay millis => { s with world := { s.world with closeDelay := millis } }
  | .takeReport => ofPair (s.reaper.takeReport s.world)
  | .check =>
    match s.reaper.phase with
    | .watching ticker => ofPair (s.reaper.check (ticker.tick s.world.nanos) s.world)
    | _ => s
  | .closed =>
    match s.reaper.phase with
    | .closing ticker _ => ofPair (s.reaper.finishClose ticker s.world)
    | _ => s
  | .leave => ofPair (s.reaper.leave (s.world.note .watchEnded))
  | .wait instant => { s with world := { s.world with now := instant } }

lemma can_check_iff : s.can .check = true ↔
    ∃ ticker, s.reaper.phase = .watching ticker ∧ ticker.isDue s.world.now = true := by
  cases hw : s.reaper.phase <;> simp [can, hw]

lemma can_closed_iff : s.can .closed = true ↔
    ∃ ticker done, s.reaper.phase = .closing ticker done ∧ done ≤ s.world.now := by
  cases hc : s.reaper.phase <;> simp [can, hc]

/-- The reaper's acts are what it can do. -/
theorem mem_moves_iff {next : Reaper × World} :
    next ∈ s.reaper.moves s.world ↔
      ∃ act, act.isReaping = true ∧ s.can act = true ∧ s.after act = ofPair next := by
  have hinj : ∀ {a b : Reaper × World}, ofPair a = ofPair b ↔ a = b := by
    intro a b
    constructor
    · intro h
      exact Prod.ext (congrArg Scene.reaper h) (congrArg Scene.world h)
    · exact congrArg ofPair
  constructor
  · intro h
    cases hp : s.reaper.phase with
    | notStarted | ended => simp [moves, hp] at h
    | closing ticker done =>
      simp only [moves, hp, List.mem_ite_nil_right, List.mem_singleton] at h
      obtain ⟨hdone, rfl⟩ := h
      exact ⟨.closed, rfl, by simp [can, hp, hdone], by simp only [after, hp]⟩
    | watching ticker =>
      simp only [moves, hp, List.mem_append, List.mem_ite_nil_right, List.mem_singleton] at h
      rcases h with (⟨hcancelled, rfl⟩ | ⟨hpending, rfl⟩) | ⟨hdue, rfl⟩
      · exact ⟨.leave, rfl, by simp [can, isWatching, hp, hcancelled], rfl⟩
      · exact ⟨.takeReport, rfl, by simp [can, isWatching, hp, hpending], rfl⟩
      · exact ⟨.check, rfl, by simp [can, hp, hdue], by simp only [after, hp]⟩
  · rintro ⟨act, hact, hcan, hafter⟩
    cases act with
    | takeReport | leave =>
      simp only [can, Bool.and_eq_true, isWatching_iff] at hcan
      obtain ⟨⟨ticker, hw⟩, h⟩ := hcan
      obtain rfl := hinj.mp hafter
      simp [moves, hw, h]
    | check =>
      obtain ⟨ticker, hw, hdue⟩ := can_check_iff.mp hcan
      simp only [after, hw] at hafter
      obtain rfl := hinj.mp hafter
      simp [moves, hw, hdue]
    | closed =>
      obtain ⟨ticker, done, hc, hdone⟩ := can_closed_iff.mp hcan
      simp only [after, hc] at hafter
      obtain rfl := hinj.mp hafter
      simp [moves, hc, hdone]
    | _ => cases hact

/-- The events of an act, in order. -/
def eventsOf (s : Scene) : Act → List Event
  | .report =>
    if s.world.hasTunnel then
      (s.world.control.activity.report s.world.control.transport.isOpen).2.map .log
    else []
  | .check => s.reaper.checkEvents s.world
  | .closed => s.world.control.closingRecords
  | .leave => [.log .watchEnded]
  | _ => []

lemma after_check (hw : s.reaper.phase = .watching ticker) :
    s.after .check =
      ⟨{ s.reaper with phase := s.reaper.phaseAfter s.world (ticker.tick s.world.nanos) },
        s.world.emit (s.reaper.checkEvents s.world)⟩ := by
  simp only [after, hw, check_eq, ofPair]

lemma after_closed {done : Nat} (hc : s.reaper.phase = .closing ticker done) :
    s.after .closed =
      ⟨{ s.reaper with phase := .watching ticker },
        { s.world with control := s.world.control.afterClosing }.emit
          s.world.control.closingRecords⟩ := by
  simp only [after, hc, finishClose_eq, ofPair]

/-- The journal after an act. -/
lemma journal_after {act : Act} (hcan : s.can act = true) :
    (s.after act).world.journal =
      ((s.eventsOf act).map (s.world.now, ·)).reverse ++ s.world.journal := by
  cases act with
  | report =>
    simp only [after, eventsOf, World.reportActivity]
    split <;> rfl
  | check =>
    obtain ⟨ticker, hw, -⟩ := can_check_iff.mp hcan
    rw [after_check hw]
    rfl
  | closed =>
    obtain ⟨ticker, done, hc, -⟩ := can_closed_iff.mp hcan
    rw [after_closed hc]
    rfl
  | _ => rfl

end Scene

/-! ## Runs -/

/-- One move of a run. -/
structure Move where
  /-- The scene before the move. -/
  before : Scene
  act : Act

namespace Move

/-- The scene after a move. -/
def after (m : Move) : Scene := m.before.after m.act

/-- When a move happens, in milliseconds. -/
def instant (m : Move) : Nat := m.before.world.now

/-- The events of a move, in order. -/
def events (m : Move) : List Event := m.before.eventsOf m.act

end Move

/-- A run that begins with `s₀`: its moves, the last one first, and the scene after them. -/
inductive Run (s₀ : Scene) : List Move → Scene → Prop
  | nil : Run s₀ [] s₀
  | cons {ms : List Move} {s : Scene} {act : Act} (hr : Run s₀ ms s) (h : s.can act = true) :
      Run s₀ (⟨s, act⟩ :: ms) (s.after act)

variable {s₀ s : Scene} {ms past : List Move} {m m' : Move}

/-- A reaper in its world as a system. -/
def system : System Scene Act Move := ⟨Scene.can, Scene.after, Move.mk⟩

/-- The runs of a reaper are those of the system. -/
theorem run_iff : Run s₀ ms s ↔ system.Run s₀ ms s := by
  constructor
  · intro hr
    induction hr with
    | nil => exact .nil
    | cons _ h ih => exact ih.cons h
  · intro hr
    induction hr with
    | nil => exact .nil
    | cons _ h ih => exact ih.cons h

/-- What holds at first and is preserved by every act holds of all that is reached. -/
theorem Run.invariant (I : Scene → Prop) (h₀ : I s₀)
    (hstep : ∀ s act, I s → s.can act = true → I (s.after act)) (hr : Run s₀ ms s) : I s :=
  (run_iff.mp hr).invariant I h₀ hstep

/-- The journal is the events of the moves. -/
theorem Run.journal_eq (hr : Run s₀ ms s) :
    s.world.journal =
      ms.flatMap (fun m => (m.events.map (m.instant, ·)).reverse) ++ s₀.world.journal :=
  (run_iff.mp hr).journal_eq (·.world.journal) _ fun _ _ => Scene.journal_after

/-- The moves up to one of them are a run, and the move can happen after them. -/
lemma Run.of_suffix (hr : Run s₀ ms s) (hm : m :: past <:+ ms) :
    Run s₀ past m.before ∧ m.before.can m.act = true := by
  obtain ⟨before, act, hrun, hcan, rfl⟩ := (run_iff.mp hr).of_suffix hm
  exact ⟨run_iff.mpr hrun, hcan⟩

/-- Time stands still but for waiting. -/
lemma now_after (s : Scene) (act : Act) :
    (s.after act).world.now = match act with
      | .wait instant => instant
      | _ => s.world.now := by
  cases act with
  | report =>
    simp only [Scene.after, World.reportActivity]
    split <;> rfl
  | check =>
    cases hw : s.reaper.phase with
    | watching ticker =>
      rw [Scene.after_check hw]
      rfl
    | _ => simp only [Scene.after, hw]
  | closed =>
    cases hc : s.reaper.phase with
    | closing ticker done =>
      rw [Scene.after_closed hc]
      rfl
    | _ => simp only [Scene.after, hc]
  | _ => rfl

/-- No act goes back in time. -/
lemma now_le_after {act : Act} (h : s.can act = true) : s.world.now ≤ (s.after act).world.now := by
  rw [now_after]
  cases act with
  | wait instant => exact Nat.le_of_lt (by simpa [Scene.can] using h)
  | _ => exact Nat.le_refl _

/-- Every move of a run happens between its beginning and its end. -/
lemma Run.instant_bounds (hr : Run s₀ ms s) :
    s₀.world.now ≤ s.world.now ∧ ∀ m ∈ ms, s₀.world.now ≤ m.instant ∧ m.instant ≤ s.world.now :=
  ⟨(run_iff.mp hr).now_le (·.world.now) fun _ _ => now_le_after,
    fun _ => (run_iff.mp hr).instant_bounds (·.world.now) Move.instant (fun _ _ => rfl)
      fun _ _ => now_le_after⟩

/-! ## Runs in which nothing is late -/

/-- Whether time passes only while the reaper has nothing to do, and not past an instant at which
it has. -/
def Move.isPrompt (m : Move) : Bool :=
  match m.act with
  | .wait instant =>
    (m.before.reaper.moves m.before.world).isEmpty &&
      m.before.reaper.wake.all (decide <| instant ≤ ·)
  | _ => true

/-- Nothing is ever done late. -/
def Prompt (ms : List Move) : Prop := ∀ m ∈ ms, m.isPrompt = true

instance : Decidable (Prompt ms) := inferInstanceAs (Decidable (∀ m ∈ ms, m.isPrompt = true))

lemma Prompt.of_cons (h : Prompt (m :: ms)) : Prompt ms := (List.forall_mem_cons.mp h).2

/-- While time passes the reaper has nothing to do, and it ends when there is something. -/
lemma Prompt.rests {instant : Nat} (h : Prompt (⟨s, .wait instant⟩ :: ms)) :
    s.reaper.moves s.world = [] ∧ ∀ wake, s.reaper.wake = some wake → instant ≤ wake := by
  have hrest := h _ List.mem_cons_self
  simp only [Move.isPrompt, Bool.and_eq_true, List.isEmpty_iff] at hrest
  refine ⟨hrest.1, ?_⟩
  intro wake hwake
  simpa [hwake] using hrest.2

/-! ## Concrete runs -/

/-- Does one act after the other, if all of them can happen. -/
def perform (s : Scene) (ms : List Move) (acts : List Act) : Option (List Move × Scene) :=
  system.perform s ms acts

/-- What is performed is a run. -/
theorem run_of_perform {acts : List Act} {later : List Move} {s' : Scene} (hr : Run s₀ ms s)
    (h : perform s ms acts = some (later, s')) : Run s₀ later s' :=
  run_iff.mpr (System.run_of_perform (run_iff.mp hr) h)

/-- A concrete run. -/
lemma exists_run (s₀ : Scene) (acts : List Act) (holds : List Move → Scene → Bool)
    (h : ((perform s₀ [] acts).any fun r => holds r.1 r.2) = true) :
    ∃ ms s, Run s₀ ms s ∧ holds ms s = true := by
  obtain ⟨⟨ms, s⟩, hrun, hholds⟩ := (Option.any_eq_true _ _).mp h
  exact ⟨ms, s, run_of_perform .nil hrun, hholds⟩

end Reaper

end CheckIn
