/-
# Without a transport, what concerns the tunnel has no influence

A service that is given no transport manages no tunnel.  The status, the credentials and the port
of its answers, and all reports of activity, then reach nothing that can be seen: neither the
calls, nor when they are made, nor any record of level INFO or above (`Run.blind_to_tunnel`).

The statement compares two runs.  Which of several things that are due the poll loop does first
is not determined by the service, so two runs that are told the same can still differ.  The runs
that are compared are told the same at the same places, and where the poll loop has a choice it
makes the same (`cues`); nothing is assumed about what it does where it has no choice, nor about
when.  What the reaper does, and in which steps time passes, may differ.

A service is compared with another one through what is left of it when all is removed that
concerns the tunnel (`Service.blindAt`).  While one run is behind the other in time, its poll loop
has nothing to do at any instant in between (`Abreast`).
-/
import CheckIn.Proofs.TunnelSafety

namespace CheckIn

/-! ## What is left without the tunnel -/

/-- An answer without what it says about the tunnel. -/
def Response.withoutTunnel (response : Response) : Response :=
  { response with status := .unspecified, port := 0, credentials := "" }

/-- Answers to come without what they say about the tunnel. -/
def Source.withoutTunnel (source : Source) : Source where
  answers := source.answers.map (·.map Response.withoutTunnel)
  delays := source.delays
  fallback := source.fallback.withoutTunnel

/-- A phase of the poll loop without what its answer says about the tunnel. -/
def PollPhase.withoutTunnel : PollPhase → PollPhase
  | .waiting => .waiting
  | .fetching done answer => .fetching done (answer.map Response.withoutTunnel)
  | .closing done response => .closing done response.withoutTunnel
  | .ended => .ended

lemma Response.withoutTunnel_answer (answer : Except PollError Response) :
    (answer.map withoutTunnel).map withoutTunnel = answer.map withoutTunnel := by
  rcases answer with code | response <;> rfl

lemma Source.withoutTunnel_withoutTunnel (source : Source) :
    source.withoutTunnel.withoutTunnel = source.withoutTunnel := by
  simp [withoutTunnel, Response.withoutTunnel, Function.comp_def, Response.withoutTunnel_answer]

lemma PollPhase.withoutTunnel_withoutTunnel (phase : PollPhase) :
    phase.withoutTunnel.withoutTunnel = phase.withoutTunnel := by
  rcases phase with _ | ⟨done, code | response⟩ | _ | _ <;> rfl

/-- The next answer is the next one without the tunnel. -/
lemma Source.next_withoutTunnel (source : Source) :
    source.withoutTunnel.next =
      (source.next.1.map Response.withoutTunnel, source.next.2.1,
        source.next.2.2.withoutTunnel) := by
  obtain ⟨answers, delays, fallback⟩ := source
  cases answers <;> rfl

/-- Whether an event is a call, or a record of level INFO or above. -/
def Event.isShown : Event → Bool
  | .log record => LogLevel.info.shows record.level
  | _ => true

namespace Service

/-- Two setups without a transport that are the same but for what their answers say about the
tunnel.  The transports that are not given to the services may differ, and so may the way in
which credentials are decrypted. -/
structure Setup.SameButTunnel (setup other : Setup) : Prop where
  hasNone : setup.hasTunnel = false
  otherHasNone : other.hasTunnel = false
  collaborators : setup.collaborators = other.collaborators
  source : setup.source.withoutTunnel = other.source.withoutTunnel
  timeout : setup.timeout = other.timeout
  clockEnd : setup.clockEnd = other.clockEnd

variable {s₀ t₀ s t s' t' : Service} {act act' : Act} {ms ns later : List Move} {m n : Move}

/-- What polling without a transport depends on, at an instant. -/
def blindAt (instant : Nat) (s : Service) : Service where
  world := { now := instant, hasTunnel := false, cancelled := s.world.cancelled }
  clockEnd := s.clockEnd
  identity := default
  decrypt := leadingKeyDecryptor
  collaborators := s.collaborators
  source := s.source.withoutTunnel
  timeoutRefusal := s.timeoutRefusal
  cadence := s.cadence
  armed := s.armed
  startPending := s.startPending
  stopPending := s.stopPending
  phase := s.phase.withoutTunnel
  reaper := ⟨Reaper.checkInterval, .zero, .notStarted, none⟩

/-- What polling without a transport depends on. -/
def blind (s : Service) : Service := s.blindAt s.world.now

/-- Services that are alike at one instant are alike at every other one. -/
lemma blindAt_eq (h : s.blindAt 0 = t.blindAt 0) (instant : Nat) :
    s.blindAt instant = t.blindAt instant :=
  congrArg (process.moveTo instant) h

/-- An act without what it says about the tunnel. -/
def Act.blind : Act → Act
  | .outside (.source source) => .outside (.source source.withoutTunnel)
  | act => act

/-- Whether an act tells a service without a transport something: a command, or a change of its
answers or of its collaborators. -/
def Act.isTold : Act → Bool
  | .start | .stop | .cancel => true
  | .outside (.source _) | .outside (.collaborators _) | .outside (.timeoutRefusal _) => true
  | _ => false

/-- Whether an act has to do with polling. -/
def Act.concernsPolling (act : Act) : Bool := act.isTold || act.isPolling

lemma Act.isTold_blind (act : Act) : act.blind.isTold = act.isTold := by
  rcases act with _ | _ | _ | _ | _ | _ | _ | _ | _ | _ | _ | _ | _ | _ | _ | change
  all_goals try rfl
  cases change <;> rfl

lemma Act.blind_of_isPolling (hact : act.isPolling = true) : act.blind = act := by
  cases act <;> first | rfl | cases hact

lemma Act.not_isTold_of_isPolling (hact : act.isPolling = true) : act.isTold = false := by
  cases act <;> first | rfl | cases hact

/-- The acts of the poll loop. -/
def Act.polling : List Act := [.takeStart, .takeStop, .endPolling, .tick, .answered, .closed]

lemma Act.mem_polling_iff : act ∈ Act.polling ↔ act.isPolling = true := by
  cases act <;> simp [Act.polling, Act.isPolling]

/-- What the poll loop can do now. -/
def pollActs (s : Service) : List Act := Act.polling.filter s.can

lemma mem_pollActs_iff : act ∈ s.pollActs ↔ act.isPolling = true ∧ s.can act = true := by
  rw [pollActs, List.mem_filter, Act.mem_polling_iff]

/-- There is nothing that the poll loop can do if it has no moves. -/
lemma pollActs_eq_nil (h : s.pollMoves = []) : s.pollActs = [] := by
  rw [List.eq_nil_iff_forall_not_mem]
  intro act hmem
  obtain ⟨hact, hcan⟩ := mem_pollActs_iff.mp hmem
  obtain ⟨s', hstep⟩ := exists_step_of_can hcan
  have hmove := mem_pollMoves_iff.mpr ⟨act, hact, hstep⟩
  rw [h] at hmove
  cases hmove

/-! ## Services without a transport -/

/-- A service that manages no tunnel, and is not closing one either. -/
structure Untunneled (s : Service) : Prop where
  hasNone : s.world.hasTunnel = false
  phase : ∀ done response, s.phase ≠ .closing done response
  reaper : ∀ ticker done, s.reaper.phase ≠ .closing ticker done

lemma Untunneled.closesFor (hk : Untunneled s) (response : Response) :
    s.closesFor response = false := by
  rw [Service.closesFor, hk.hasNone, Bool.false_and]

lemma Untunneled.reaction (hk : Untunneled s) (response : Response) :
    s.reaction response = (.ok .none, s.world.control, []) := by
  rw [Service.reaction, hk.hasNone, Bool.false_and]
  rfl

/-- An answer is dispatched at once. -/
lemma Untunneled.answerOutcome (hk : Untunneled s) (response : Response) :
    s.answerOutcome (.ok response) = ⟨(s.adoption response).2.1, s.world.control,
      .log (.answerReceived response) :: s.dispatchEvents response, .waiting⟩ := by
  rw [Service.answerOutcome, Service.reactOutcome, hk.closesFor, hk.reaction]
  rfl

lemma Untunneled.closesNow (hk : Untunneled s) : s.reaper.closesNow s.world = false := by
  rw [Reaper.closesNow, hk.hasNone, Bool.false_and, Bool.false_and]

lemma Untunneled.blind (hk : Untunneled s) : Untunneled s.blind := by
  refine ⟨rfl, ?_, ?_⟩
  · intro done response hphase
    have hblind : s.phase.withoutTunnel = .closing done response := hphase
    cases hp : s.phase with
    | closing earlier answer => exact hk.phase earlier answer hp
    | _ =>
      rw [hp] at hblind
      cases hblind
  · intro ticker done hphase
    cases hphase

lemma Untunneled.step (hk : Untunneled s) (h : Step s act s') : Untunneled s' := by
  have hcan := h.can
  rw [h.eq_after]
  refine ⟨hk.hasNone, ?_, ?_⟩
  · intro done response
    cases act with
    | answered =>
      cases hp : s.phase with
      | fetching finish answer =>
        cases answer with
        | error code => simp [phaseAfter, hp, Service.answerOutcome]
        | ok answer => simp [phaseAfter, hp, hk.answerOutcome]
      | _ => simp [Service.can, hp] at hcan
    | endPolling | tick | closed => simp [phaseAfter]
    | _ => exact hk.phase done response
  · intro ticker done
    cases act with
    | check =>
      cases hp : s.reaper.phase with
      | watching watched => simp [reaperAfter, hp, Reaper.phaseAfter, hk.closesNow]
      | _ => simp [Service.can, hp] at hcan
    | reaperClosed =>
      cases hp : s.reaper.phase with
      | closing watched finish => exact absurd hp (hk.reaper watched finish)
      | _ => simp [Service.can, hp] at hcan
    | leave => simp [reaperAfter]
    | _ => exact hk.reaper ticker done

lemma untunneled_of_spawn {config : Config} {setup : Setup} {world : World}
    (hnone : setup.hasTunnel = false) (hs : spawnWithSource config setup world = .ok s₀) :
    Untunneled s₀ := by
  obtain ⟨cadence, -, rfl⟩ := exists_cadence_of_spawn hs
  refine ⟨hnone, ?_, ?_⟩
  · intro done response hphase
    cases hphase
  · intro ticker done hphase
    cases hphase

/-! ## What an act depends on -/

lemma pollEnded_blind : s.blind.pollEnded = s.pollEnded := by
  cases hp : s.phase <;> simp [pollEnded, blind, blindAt, hp, PollPhase.withoutTunnel]

/-- Whether an act that has to do with polling can happen does not depend on the tunnel. -/
lemma can_blind (hact : act.concernsPolling = true) : s.blind.can act.blind = s.can act := by
  have hwaiting : s.blind.isWaiting = s.isWaiting := by
    cases hp : s.phase <;> simp [isWaiting, blind, blindAt, hp, PollPhase.withoutTunnel]
  cases act with
  | start | stop =>
    simp only [Act.blind, Service.can, pollEnded_blind]
    rfl
  | takeStart | takeStop | endPolling | tick =>
    simp only [Act.blind, Service.can, hwaiting]
    rfl
  | answered | closed =>
    cases hp : s.phase <;>
      simp [Act.blind, Service.can, blind, blindAt, hp, PollPhase.withoutTunnel]
  | cancel => rfl
  | outside change => cases change <;> rfl
  | _ => cases hact

/-- What the poll loop can do does not depend on the tunnel. -/
lemma pollActs_blind : s.blind.pollActs = s.pollActs := by
  refine List.filter_congr fun act hmem => ?_
  have hact := Act.mem_polling_iff.mp hmem
  have hcan : s.blind.can act.blind = s.can act :=
    can_blind (by simp [Act.concernsPolling, hact])
  rwa [Act.blind_of_isPolling hact] at hcan

/-- Nothing that is shown at an act which has to do with polling depends on the tunnel. -/
lemma shown_blind (hk : Untunneled s) (hact : act.concernsPolling = true)
    (hcan : s.can act = true) :
    (s.blind.eventsOf act.blind).filter Event.isShown = (s.eventsOf act).filter Event.isShown := by
  cases act with
  | start | stop => simp only [Act.blind, eventsOf, pollEnded_blind]
  | answered =>
    cases hp : s.phase with
    | fetching done answer =>
      have hblind : s.blind.phase = .fetching done (answer.map Response.withoutTunnel) := by
        simp [blind, blindAt, hp, PollPhase.withoutTunnel]
      simp only [Act.blind, eventsOf, hp, hblind]
      cases answer with
      | error code => rfl
      | ok response =>
        -- the record of the answer itself is not shown
        simp only [Except.map, hk.answerOutcome, hk.blind.answerOutcome]
        rfl
    | _ => simp [Service.can, hp] at hcan
  | closed =>
    cases hp : s.phase with
    | closing done response => exact absurd hp (hk.phase done response)
    | _ => simp [Service.can, hp] at hcan
  | outside change => cases change <;> rfl
  | cancel | takeStart | takeStop | endPolling | tick => rfl
  | _ => cases hact

/-- What polling depends on after an act which has to do with polling does not depend on the
tunnel before it. -/
lemma blindAt_after (hk : Untunneled s) (hact : act.concernsPolling = true)
    (hcan : s.can act = true) (instant : Nat) :
    (s.blind.after act.blind).blindAt instant = (s.after act).blindAt instant := by
  have hphase : s.blind.phase.withoutTunnel = s.phase.withoutTunnel :=
    PollPhase.withoutTunnel_withoutTunnel _
  have hsource : s.blind.source.withoutTunnel = s.source.withoutTunnel :=
    Source.withoutTunnel_withoutTunnel _
  cases act with
  | start | stop =>
    simp only [Act.blind, blindAt, after, worldAfter, cadenceAfter, phaseAfter, startPendingAfter,
      stopPendingAfter, pollEnded_blind, hphase, hsource]
    rfl
  | answered =>
    cases hp : s.phase with
    | fetching done answer =>
      have hblind : s.blind.phase = .fetching done (answer.map Response.withoutTunnel) := by
        simp [blind, blindAt, hp, PollPhase.withoutTunnel]
      simp only [Act.blind, blindAt, after, worldAfter, cadenceAfter, phaseAfter, hp, hblind,
        hsource]
      cases answer with
      | error code => rfl
      | ok response =>
        simp only [Except.map, hk.answerOutcome, hk.blind.answerOutcome]
        rfl
    | _ => simp [Service.can, hp] at hcan
  | closed =>
    cases hp : s.phase with
    | closing done response => exact absurd hp (hk.phase done response)
    | _ => simp [Service.can, hp] at hcan
  | tick =>
    have hnext : s.blind.source.next = _ := s.source.next_withoutTunnel
    simp only [Act.blind, blindAt, after, worldAfter, cadenceAfter, phaseAfter, hnext,
      Source.withoutTunnel_withoutTunnel, PollPhase.withoutTunnel, Response.withoutTunnel_answer]
    rfl
  | cancel | takeStart | takeStop | endPolling =>
    simp only [Act.blind, blindAt, after, worldAfter, cadenceAfter, phaseAfter, startPendingAfter,
      stopPendingAfter, hphase, hsource]
    rfl
  | outside change =>
    cases change with
    | source answers =>
      simp only [Act.blind, blindAt, after, worldAfter, cadenceAfter, phaseAfter,
        startPendingAfter, stopPendingAfter, hphase, Source.withoutTunnel_withoutTunnel]
      rfl
    | collaborators | timeoutRefusal =>
      simp only [Act.blind, blindAt, after, worldAfter, cadenceAfter, phaseAfter,
        startPendingAfter, stopPendingAfter, hphase, hsource]
      rfl
    | _ => cases hact
  | _ => cases hact

/-- Nothing is shown at an act that has nothing to do with polling. -/
lemma shown_eq_nil (hk : Untunneled s) (hact : act.concernsPolling = false)
    (hcan : s.can act = true) : (s.eventsOf act).filter Event.isShown = [] := by
  cases act with
  | reportActivity => simp [eventsOf, hk.hasNone]
  | check =>
    simp only [eventsOf, Reaper.checkEvents, hk.hasNone]
    cases s.reaper.lastActivity <;> rfl
  | reaperClosed =>
    cases hp : s.reaper.phase with
    | closing ticker done => exact absurd hp (hk.reaper ticker done)
    | _ => simp [Service.can, hp] at hcan
  | takeReport | leave | wait instant => rfl
  | outside change => cases change <;> rfl
  | _ => cases hact

/-- Polling depends on nothing that changes with an act which has nothing to do with polling. -/
lemma blindAt_after_eq (hact : act.concernsPolling = false) (instant : Nat) :
    (s.after act).blindAt instant = s.blindAt instant := by
  cases act with
  | reportActivity | takeReport | check | reaperClosed | leave | wait instant => rfl
  | outside change =>
    cases change with
    | source | collaborators | timeoutRefusal => cases hact
    | failures | closeDelay | tunnel => rfl
  | _ => cases hact

/-! ## What is told, and what is shown -/

/-- The number of things that the poll loop has done at this instant, after one more act. -/
def turnsAfter (turns : Nat) (act : Act) : Nat :=
  match act with
  | .wait _ => 0
  | act => if act.isPolling then turns + 1 else turns

/-- Something that a run is told, or a choice of its poll loop. -/
structure Cue where
  instant : Nat
  /-- How many things the poll loop has done before at the same instant. -/
  turns : Nat
  /-- What it is, without what it says about the tunnel. -/
  act : Act

/-- Whether a move is told from outside, or one of several that the poll loop could make. -/
def Move.isCue (m : Move) : Bool :=
  m.act.isTold || (m.act.isPolling && decide (2 ≤ m.before.pollActs.length))

/-- The cues of moves, the first move first. -/
def cuesFrom : (turns : Nat) → List Move → List Cue
  | _, [] => []
  | turns, m :: later =>
    if m.isCue then ⟨m.instant, turns, m.act.blind⟩ :: cuesFrom (turnsAfter turns m.act) later
    else cuesFrom (turnsAfter turns m.act) later

/-- What a run is told and which choices its poll loop makes, and where in the run. -/
def cues (ms : List Move) : List Cue := cuesFrom 0 ms.reverse

/-- What is shown at a move. -/
def Move.shown (m : Move) : List (Nat × Event) :=
  (m.events.filter Event.isShown).map (m.instant, ·)

/-- What is shown of a run, in order: the calls and the records of level INFO or above, each with
its instant. -/
def shown (ms : List Move) : List (Nat × Event) := ms.reverse.flatMap Move.shown

/-! ## Runs from their beginning -/

/-- A run that ends with `s'`: its moves, the first one first. -/
inductive Path : Service → List Move → Service → Prop
  | nil {s : Service} : Path s [] s
  | cons {s s₁ s' : Service} {act : Act} {later : List Move} (h : Step s act s₁)
      (hp : Path s₁ later s') : Path s (⟨s, act⟩ :: later) s'

lemma Path.snoc (hp : Path s later s') (h : Step s' act t) : Path s (later ++ [⟨s', act⟩]) t := by
  induction hp with
  | nil => exact .cons h .nil
  | cons hs _ ih => exact .cons hs (ih h)

lemma Run.path (hr : Run s₀ ms s) : Path s₀ ms.reverse s := by
  induction hr with
  | nil => exact .nil
  | cons _ h ih =>
    rw [List.reverse_cons]
    exact ih.snoc h

lemma Path.now_le (hp : Path s later s') : s.world.now ≤ s'.world.now := by
  induction hp with
  | nil => exact Nat.le_refl _
  | cons h _ ih => exact Nat.le_trans h.now_le ih

/-- Cues come in the order of time, and at one instant in the order of what the poll loop does. -/
lemma Path.cue_place {turns : Nat} (hp : Path s later s') :
    ∀ cue ∈ cuesFrom turns later, s.world.now < cue.instant ∨
      (s.world.now = cue.instant ∧ turns ≤ cue.turns) := by
  induction hp generalizing turns with
  | nil =>
    intro cue hmem
    cases hmem
  | @cons s s₁ s' act later h _ ih =>
    have htail : ∀ cue ∈ cuesFrom (turnsAfter turns act) later, s.world.now < cue.instant ∨
        (s.world.now = cue.instant ∧ turns ≤ cue.turns) := by
      intro cue hmem
      have hplace := ih cue hmem
      by_cases hwait : ∃ instant, act = .wait instant
      · obtain ⟨instant, rfl⟩ := hwait
        have hlt : s.world.now < instant := by simpa [Service.can] using h.can
        rw [h.eq_after, world_after, now_worldAfter] at hplace
        dsimp only at hplace
        omega
      · have hnow : s₁.world.now = s.world.now := by
          rw [h.eq_after, world_after, now_worldAfter]
          split
          · next instant => exact absurd ⟨instant, rfl⟩ hwait
          · rfl
        have hturns : turns ≤ turnsAfter turns act := by
          unfold turnsAfter
          split
          · next instant => exact absurd ⟨instant, rfl⟩ hwait
          · split <;> omega
        omega
    intro cue hmem
    rw [cuesFrom] at hmem
    split at hmem
    · rcases List.mem_cons.mp hmem with rfl | hmem
      · exact .inr ⟨rfl, Nat.le_refl _⟩
      · exact htail cue hmem
    · exact htail cue hmem

/-! ## Two runs side by side -/

/-- Two services that have shown the same and are alike but for the tunnel.  One of them may be
behind the other in time; then its poll loop has nothing to do until it has caught up. -/
structure Abreast (s t : Service) (turns turns' : Nat) : Prop where
  left : Untunneled s
  right : Untunneled t
  alike : s.blindAt 0 = t.blindAt 0
  quiet : ∀ instant, min s.world.now t.world.now ≤ instant →
    instant < max s.world.now t.world.now → (s.blindAt instant).pollActs = []
  level : s.world.now = t.world.now → turns = turns'
  behind : s.world.now < t.world.now → turns' = 0
  ahead : t.world.now < s.world.now → turns = 0

variable {turns turns' : Nat} {laterLeft laterRight : List Move}

lemma Abreast.symm (hk : Abreast s t turns turns') : Abreast t s turns' turns where
  left := hk.right
  right := hk.left
  alike := hk.alike.symm
  quiet instant hlow hhigh := by
    rw [← blindAt_eq hk.alike]
    exact hk.quiet instant (by omega) (by omega)
  level hnow := (hk.level hnow.symm).symm
  behind := hk.ahead
  ahead := hk.behind

lemma Abreast.blind_eq (hk : Abreast s t turns turns') (hnow : s.world.now = t.world.now) :
    s.blind = t.blind := by
  rw [blind, blind, hnow]
  exact blindAt_eq hk.alike _

lemma Abreast.pollActs_eq (hk : Abreast s t turns turns') (hnow : s.world.now = t.world.now) :
    s.pollActs = t.pollActs := by
  rw [← pollActs_blind, hk.blind_eq hnow, pollActs_blind]

/-- While time passes in a run in which nothing is late, the poll loop has nothing to do. -/
lemma quiet_of_wait {instant target : Nat} (hp : (Move.mk s (.wait target)).isPrompt = true)
    (hlt : instant < target) : (s.blindAt instant).pollActs = [] := by
  have hprompt : Prompt [⟨s, .wait target⟩] := by simpa [Prompt] using hp
  have hmoves := hprompt.pollMoves_eq_nil
  have hwake := hprompt.le_wake.1
  have hlater : (process.moveTo instant s).pollMoves = [] := by
    cases hphase : s.phase with
    | ended => simp [pollMoves, process, hphase]
    | fetching done answer | closing done answer =>
      have hle := hwake done (by simp [pollWake, hphase])
      have hnot : ¬ done ≤ instant := by omega
      simp [pollMoves, process, hphase, hnot]
    | waiting =>
      simp only [pollMoves, hphase, List.append_eq_nil_iff, ite_eq_right_iff, reduceCtorEq,
        imp_false] at hmoves
      obtain ⟨⟨⟨hstart, hstop⟩, hcancel⟩, -⟩ := hmoves
      have hdue : ¬ (s.armed = true ∧ s.cadence.ticker.isDue instant = true) := by
        rintro ⟨harmed, hdue⟩
        have hle := hwake s.cadence.ticker.dueAt (by simp [pollWake, hphase, harmed])
        rw [Ticker.isDue, decide_eq_true_iff] at hdue
        omega
      simp only [pollMoves, process, hphase, Bool.and_eq_true, if_neg hdue, List.append_nil,
        List.append_eq_nil_iff, ite_eq_right_iff, reduceCtorEq, imp_false]
      exact ⟨⟨hstart, hstop⟩, hcancel⟩
  have hblind := pollActs_blind (s := process.moveTo instant s)
  rw [pollActs_eq_nil hlater] at hblind
  exact hblind

/-- A move that has nothing to do with polling leaves two services abreast. -/
lemma Abreast.hidden (hk : Abreast s t turns turns') (h : Step s act s')
    (hact : act.concernsPolling = false) (hp : (Move.mk s act).isPrompt = true) :
    Abreast s' t (turnsAfter turns act) turns' := by
  have hleft := hk.left.step h
  have hcan := h.can
  rw [h.eq_after] at hleft ⊢
  have hnow : (s.after act).world.now = _ := now_worldAfter s act
  by_cases hwait : ∃ instant, act = .wait instant
  · obtain ⟨instant, rfl⟩ := hwait
    have hlt : s.world.now < instant := by simpa [Service.can] using hcan
    dsimp only at hnow
    refine ⟨hleft, hk.right, (blindAt_after_eq hact 0).trans hk.alike, ?_, ?_, ?_, ?_⟩
    · intro between hlow hhigh
      rw [blindAt_after_eq hact]
      rw [hnow] at hlow hhigh
      by_cases hold : min s.world.now t.world.now ≤ between ∧
          between < max s.world.now t.world.now
      · exact hk.quiet between hold.1 hold.2
      · exact quiet_of_wait hp (by omega)
    · intro heq
      rw [hk.behind (by omega)]
      rfl
    · intro _
      exact hk.behind (by omega)
    · intro _
      rfl
  · have hsame : (s.after act).world.now = s.world.now := by
      rw [hnow]
      split
      · next instant => exact absurd ⟨instant, rfl⟩ hwait
      · rfl
    have hturns : turnsAfter turns act = turns := by
      unfold turnsAfter
      split
      · next instant => exact absurd ⟨instant, rfl⟩ hwait
      · next act _ =>
        have hpolling := (Bool.or_eq_false_iff.mp hact).2
        rw [hpolling]
        rfl
    rw [hturns]
    refine ⟨hleft, hk.right, (blindAt_after_eq hact 0).trans hk.alike, ?_, ?_, ?_, ?_⟩
    · intro between hlow hhigh
      rw [blindAt_after_eq hact]
      rw [hsame] at hlow hhigh
      exact hk.quiet between hlow hhigh
    · rw [hsame]
      exact hk.level
    · rw [hsame]
      exact hk.behind
    · rw [hsame]
      exact hk.ahead

/-- No time passes with an act that has to do with polling. -/
lemma now_after_of_concernsPolling (hact : act.concernsPolling = true) :
    (s.after act).world.now = s.world.now := by
  have hnow : (s.after act).world.now = _ := now_worldAfter s act
  rw [hnow]
  split
  · cases hact
  · rfl

lemma turnsAfter_of_isPolling (hact : act.isPolling = true) :
    turnsAfter turns act = turns + 1 := by
  cases act <;> first | rfl | cases hact

/-- A service that is behind has nothing to do and is told nothing: what it were told would have
been told to the other one at this instant too. -/
lemma Abreast.not_behind (hk : Abreast s t turns turns') (hlt : s.world.now < t.world.now)
    (h : Step s act s') (hact : act.concernsPolling = true) (hp : Path t laterRight t')
    (hcues : cuesFrom turns (⟨s, act⟩ :: laterLeft) = cuesFrom turns' laterRight) : False := by
  rcases Bool.or_eq_true_iff.mp hact with htold | hpolling
  · have hcue : (Move.mk s act).isCue = true := by simp [Move.isCue, htold]
    rw [cuesFrom, if_pos hcue] at hcues
    have hplace := hp.cue_place _ (hcues ▸ List.mem_cons_self)
    have hinstant : (Move.mk s act).instant = s.world.now := rfl
    dsimp only at hplace
    omega
  · have hnothing := hk.quiet s.world.now (by omega) (by omega)
    have hcan : act ∈ s.pollActs := mem_pollActs_iff.mpr ⟨hpolling, h.can⟩
    rw [← pollActs_blind, blind, hnothing] at hcan
    cases hcan

/-- A service that is told something is not abreast of one whose poll loop goes on by itself. -/
lemma Abreast.not_told (hk : Abreast s t turns turns') (hnow : s.world.now = t.world.now)
    (htold : act.isTold = true) (h : Step t act' t') (hpolling : act'.isPolling = true)
    {end' : Service} (hp : Path t' laterRight end')
    (hcues : cuesFrom turns (⟨s, act⟩ :: laterLeft) = cuesFrom turns' (⟨t, act'⟩ :: laterRight)) :
    False := by
  have hcue : (Move.mk s act).isCue = true := by simp [Move.isCue, htold]
  rw [cuesFrom, if_pos hcue, cuesFrom] at hcues
  split at hcues
  · -- the other one makes a choice
    have hsame : act.blind = act'.blind := congrArg Cue.act (List.cons.inj hcues).1
    rw [← Act.isTold_blind, hsame, Act.blind_of_isPolling hpolling,
      Act.not_isTold_of_isPolling hpolling] at htold
    cases htold
  · -- what is told comes before it
    have hplace := hp.cue_place _ (hcues ▸ List.mem_cons_self)
    have hafter : t'.world.now = t.world.now := by
      rw [h.eq_after]
      exact now_after_of_concernsPolling (by simp [Act.concernsPolling, hpolling])
    have hturns := hk.level hnow
    rw [turnsAfter_of_isPolling hpolling] at hplace
    have hinstant : (Move.mk s act).instant = s.world.now := rfl
    dsimp only at hplace
    omega

/-- What two services do that are abreast at the same instant is the same. -/
lemma Abreast.acts_eq (hk : Abreast s t turns turns') (hnow : s.world.now = t.world.now)
    (h : Step s act s') (hact : act.concernsPolling = true) (h' : Step t act' t')
    (hact' : act'.concernsPolling = true) {end' end'' : Service} (hp : Path s' laterLeft end')
    (hp' : Path t' laterRight end'')
    (hcues : cuesFrom turns (⟨s, act⟩ :: laterLeft) = cuesFrom turns' (⟨t, act'⟩ :: laterRight)) :
    act.blind = act'.blind ∧
      cuesFrom (turnsAfter turns act) laterLeft = cuesFrom (turnsAfter turns' act') laterRight := by
  have hheads : (Move.mk s act).isCue = true → (Move.mk t act').isCue = true →
      act.blind = act'.blind ∧
        cuesFrom (turnsAfter turns act) laterLeft =
          cuesFrom (turnsAfter turns' act') laterRight := by
    intro hcue hcue'
    rw [cuesFrom, if_pos hcue, cuesFrom, if_pos hcue'] at hcues
    obtain ⟨hhead, htail⟩ := List.cons.inj hcues
    exact ⟨congrArg Cue.act hhead, htail⟩
  rcases Bool.or_eq_true_iff.mp hact with htold | hpolling
  · rcases Bool.or_eq_true_iff.mp hact' with htold' | hpolling'
    · exact hheads (by simp [Move.isCue, htold]) (by simp [Move.isCue, htold'])
    · exact (hk.not_told hnow htold h' hpolling' hp' hcues).elim
  · rcases Bool.or_eq_true_iff.mp hact' with htold' | hpolling'
    · exact (hk.symm.not_told hnow.symm htold' h hpolling hp hcues.symm).elim
    · have hchoices := hk.pollActs_eq hnow
      have hmem : act ∈ s.pollActs := mem_pollActs_iff.mpr ⟨hpolling, h.can⟩
      have hmem' : act' ∈ s.pollActs := hchoices ▸ mem_pollActs_iff.mpr ⟨hpolling', h'.can⟩
      by_cases hchoice : 2 ≤ s.pollActs.length
      · exact hheads (by simp [Move.isCue, hpolling, hchoice])
          (by simp [Move.isCue, hpolling', ← hchoices, hchoice])
      · -- where there is no choice, both do the only thing that they can
        have hcue : ¬ (Move.mk s act).isCue = true := by
          simp [Move.isCue, Act.not_isTold_of_isPolling hpolling, hchoice]
        have hcue' : ¬ (Move.mk t act').isCue = true := by
          simp [Move.isCue, Act.not_isTold_of_isPolling hpolling', ← hchoices, hchoice]
        rw [cuesFrom, if_neg hcue, cuesFrom, if_neg hcue'] at hcues
        obtain ⟨only, honly⟩ : ∃ only, s.pollActs = [only] := by
          refine List.length_eq_one_iff.mp ?_
          have := List.length_pos_of_mem hmem
          omega
        rw [honly, List.mem_singleton] at hmem hmem'
        exact ⟨by rw [hmem, hmem'], hcues⟩

lemma Abreast.after (hk : Abreast s t turns turns') (hnow : s.world.now = t.world.now)
    (h : Step s act s') (hact : act.concernsPolling = true) (h' : Step t act' t')
    (hact' : act'.concernsPolling = true) (hsame : act.blind = act'.blind) :
    Abreast s' t' (turnsAfter turns act) (turnsAfter turns' act') := by
  have hleft := hk.left.step h
  have hright := hk.right.step h'
  have hcan := h.can
  have hcan' := h'.can
  rw [h.eq_after] at hleft ⊢
  rw [h'.eq_after] at hright ⊢
  have hthen : (s.after act).world.now = (t.after act').world.now := by
    rw [now_after_of_concernsPolling hact, now_after_of_concernsPolling hact', hnow]
  refine ⟨hleft, hright, ?_, ?_, ?_, ?_, ?_⟩
  · rw [← blindAt_after hk.left hact hcan, ← blindAt_after hk.right hact' hcan',
      hk.blind_eq hnow, hsame]
  · intro instant _ hhigh
    omega
  · intro _
    have hturns : ∀ n : Nat, ∀ act : Act, turnsAfter n act.blind = turnsAfter n act := by
      intro n act
      cases act with
      | outside change => cases change <;> rfl
      | _ => rfl
    rw [hk.level hnow, ← hturns, hsame, hturns]
  · intro hlt
    omega
  · intro hlt
    omega

/-- A service does nothing more once the other one is at its end. -/
lemma Abreast.not_more (hk : Abreast s t turns turns') (h : Step s act s')
    (hact : act.concernsPolling = true) {end' : Service} (hp : Path s' laterLeft end')
    (hnow : end'.world.now = t.world.now) (hrest : t.pollActs = [])
    (hcues : cuesFrom turns (⟨s, act⟩ :: laterLeft) = []) : False := by
  have hle : s.world.now ≤ t.world.now := hnow ▸ Nat.le_trans h.now_le hp.now_le
  rcases Nat.lt_or_eq_of_le hle with hlt | heq
  · exact hk.not_behind hlt h hact .nil hcues
  · rcases Bool.or_eq_true_iff.mp hact with htold | hpolling
    · have hcue : (Move.mk s act).isCue = true := by simp [Move.isCue, htold]
      rw [cuesFrom, if_pos hcue] at hcues
      cases hcues
    · have hmem : act ∈ s.pollActs := mem_pollActs_iff.mpr ⟨hpolling, h.can⟩
      rw [hk.pollActs_eq heq, hrest] at hmem
      cases hmem

/-- A move that has nothing to do with polling is no cue and shows nothing. -/
lemma hidden_eq (hk : Untunneled s) (h : Step s act s') (hact : act.concernsPolling = false)
    (turns : Nat) (later : List Move) :
    cuesFrom turns (⟨s, act⟩ :: later) = cuesFrom (turnsAfter turns act) later ∧
      (Move.mk s act).shown = [] := by
  obtain ⟨htold, hpolling⟩ := Bool.or_eq_false_iff.mp hact
  constructor
  · have hcue : ¬ (Move.mk s act).isCue = true := by simp [Move.isCue, htold, hpolling]
    rw [cuesFrom, if_neg hcue]
  · have hshown := shown_eq_nil hk hact h.can
    simp [Move.shown, Move.events, hshown]

/-- Moves that are the same but for the tunnel show the same. -/
lemma Abreast.shown_move (hk : Abreast s t turns turns') (hnow : s.world.now = t.world.now)
    (h : Step s act s') (hact : act.concernsPolling = true) (h' : Step t act' t')
    (hact' : act'.concernsPolling = true) (hsame : act.blind = act'.blind) :
    (Move.mk s act).shown = (Move.mk t act').shown := by
  have hevents : ((Move.mk s act).events).filter Event.isShown =
      ((Move.mk t act').events).filter Event.isShown := by
    rw [Move.events, Move.events, ← shown_blind hk.left hact h.can,
      ← shown_blind hk.right hact' h'.can, hk.blind_eq hnow, hsame]
  have hinstant : (Move.mk s act).instant = (Move.mk t act').instant := hnow
  rw [Move.shown, Move.shown, hevents, hinstant]

/-- Two runs that go on side by side from services that are abreast, and are told the same, show
the same until an instant at which neither poll loop has anything left to do. -/
theorem Abreast.shown_eq (hk : Abreast s t turns turns') (hl : Path s laterLeft s')
    (hr : Path t laterRight t') (hpl : Prompt laterLeft) (hpr : Prompt laterRight)
    (hcues : cuesFrom turns laterLeft = cuesFrom turns' laterRight)
    (hnow : s'.world.now = t'.world.now) (hrest : s'.pollActs = []) (hrest' : t'.pollActs = []) :
    laterLeft.flatMap Move.shown = laterRight.flatMap Move.shown := by
  -- by induction on the moves that are left to both
  induction hn : laterLeft.length + laterRight.length using Nat.strongRecOn
    generalizing s t turns turns' laterLeft laterRight with
  | ind k ih =>
  have hleft : ∀ {act s₁ later}, laterLeft = ⟨s, act⟩ :: later → Step s act s₁ →
      Path s₁ later s' → act.concernsPolling = false →
      laterLeft.flatMap Move.shown = laterRight.flatMap Move.shown := by
    rintro act s₁ later rfl h hp hact
    obtain ⟨hsame, hshown⟩ := hidden_eq hk.left h hact turns later
    rw [hsame] at hcues
    rw [List.flatMap_cons, hshown, List.nil_append]
    exact ih _ (by simp at hn ⊢; omega) (hk.hidden h hact (hpl _ List.mem_cons_self)) hp hr
      hpl.of_cons hpr hcues rfl
  have hright : ∀ {act t₁ later}, laterRight = ⟨t, act⟩ :: later → Step t act t₁ →
      Path t₁ later t' → act.concernsPolling = false →
      laterLeft.flatMap Move.shown = laterRight.flatMap Move.shown := by
    rintro act t₁ later rfl h hp hact
    obtain ⟨hsame, hshown⟩ := hidden_eq hk.right h hact turns' later
    rw [hsame] at hcues
    rw [List.flatMap_cons, hshown, List.nil_append]
    exact ih _ (by simp at hn ⊢; omega)
      (hk.symm.hidden h hact (hpr _ List.mem_cons_self)).symm hl hp hpl hpr.of_cons hcues rfl
  cases hl with
  | nil =>
    cases hr with
    | nil => rfl
    | @cons _ t₁ _ act' later' h' hp' =>
      cases hact' : act'.concernsPolling with
      | false => exact hright rfl h' hp' hact'
      | true => exact (hk.symm.not_more h' hact' hp' hnow.symm hrest hcues.symm).elim
  | @cons _ s₁ _ act later h hp =>
    cases hact : act.concernsPolling with
    | false => exact hleft rfl h hp hact
    | true =>
      cases hr with
      | nil => exact (hk.not_more h hact hp hnow hrest' hcues).elim
      | @cons _ t₁ _ act' later' h' hp' =>
        cases hact' : act'.concernsPolling with
        | false => exact hright rfl h' hp' hact'
        | true =>
          rcases Nat.lt_trichotomy s.world.now t.world.now with hlt | heq | hlt
          · exact (hk.not_behind hlt h hact (.cons h' hp') hcues).elim
          · obtain ⟨hsame, htails⟩ := hk.acts_eq heq h hact h' hact' hp hp' hcues
            have hmove := hk.shown_move heq h hact h' hact' hsame
            have hrest := ih _ (by simp at hn ⊢; omega) (hk.after heq h hact h' hact' hsame)
              hp hp' hpl.of_cons hpr.of_cons htails rfl
            rw [List.flatMap_cons, List.flatMap_cons, hmove, hrest]
          · exact (hk.symm.not_behind hlt h' hact' (.cons h hp) hcues.symm).elim

/-! ## Two runs that have just been started -/

/-- Services that are started alike but for the tunnel are abreast. -/
lemma abreast_of_spawn {config : Config} {setup other : Setup} {world : World}
    (hsetup : setup.SameButTunnel other) (hs : spawnWithSource config setup world = .ok s₀)
    (ht : spawnWithSource config other world = .ok t₀) : Abreast s₀ t₀ 0 0 := by
  have hleft := untunneled_of_spawn hsetup.hasNone hs
  have hright := untunneled_of_spawn hsetup.otherHasNone ht
  obtain ⟨cadence, hcadence, rfl⟩ := exists_cadence_of_spawn hs
  obtain ⟨cadence', hcadence', rfl⟩ := exists_cadence_of_spawn ht
  rw [← hsetup.clockEnd, ← hsetup.timeout, hcadence] at hcadence'
  obtain rfl := Except.ok.inj hcadence'
  refine ⟨hleft, hright, ?_, ?_, ?_, ?_, ?_⟩
  · simp only [blindAt, begun, hsetup.collaborators, hsetup.source, hsetup.clockEnd]
    rfl
  · intro instant hlow hhigh
    have hsame : (begun config setup world cadence).world.now =
        (begun config other world cadence).world.now := rfl
    omega
  · intro _
    rfl
  · intro _
    rfl
  · intro _
    rfl

lemma Untunneled.tunnelCalls (hk : Untunneled s) (act : Act) :
    tunnelCalls (s.eventsOf act) = [] := by
  rw [tunnelCalls_eventsOf]
  cases act with
  | answered =>
    cases s.phase with
    | fetching done answer =>
      cases answer with
      | error code => rfl
      | ok response =>
        have hopens : s.opensFor response = false := by
          rw [opensFor, hk.hasNone, Bool.false_and]
        simp [callsFor, hk.closesFor, hopens]
    | _ => rfl
  | check => simp [hk.closesNow]
  | _ => rfl

/-- A service without a transport never opens or closes a tunnel. -/
lemma Run.no_tunnelCall (hr : Run s₀ ms s) (hk : Untunneled s₀) :
    ∀ m ∈ ms, .closeTunnel ∉ m.events ∧ ∀ parameters, .openTunnel parameters ∉ m.events := by
  intro m hm
  obtain ⟨later, past, rfl⟩ := List.append_of_mem hm
  have hpast := (hr.of_suffix (List.suffix_append later (m :: past))).1
  have hbefore := hpast.invariant Untunneled hk fun _ _ _ hs h => hs.step h
  have hcalls : tunnelCalls m.events = [] := hbefore.tunnelCalls m.act
  constructor
  · intro hclose
    have hmem := closing_mem_tunnelCalls.mpr hclose
    rw [hcalls] at hmem
    cases hmem
  · intro parameters hopen
    have hmem := opening_mem_tunnelCalls.mpr hopen
    rw [hcalls] at hmem
    cases hmem

/-- Two services without a transport, of one configuration and the same but for what their answers
say about the tunnel, show the same calls and the same records of level INFO or above, at the same
instants, if they are told the same and their poll loops make the same choices; however often and
whenever activity is reported to either.  And neither ever calls a transport. -/
theorem Run.blind_to_tunnel {config : Config} {setup other : Setup} {world : World}
    (hsetup : setup.SameButTunnel other) (hs : spawnWithSource config setup world = .ok s₀)
    (ht : spawnWithSource config other world = .ok t₀) (hr : Run s₀ ms s) (hr' : Run t₀ ns t)
    (hp : Prompt ms) (hp' : Prompt ns) (hcues : cues ms = cues ns)
    (hnow : s.world.now = t.world.now) (hrest : s.pollMoves = []) (hrest' : t.pollMoves = []) :
    shown ms = shown ns ∧ ∀ m ∈ ms ++ ns, .closeTunnel ∉ m.events ∧
      ∀ parameters, .openTunnel parameters ∉ m.events := by
  constructor
  · have hprompt : ∀ {moves : List Move}, Prompt moves → Prompt moves.reverse :=
      fun h m hm => h m (List.mem_reverse.mp hm)
    exact (abreast_of_spawn hsetup hs ht).shown_eq hr.path hr'.path (hprompt hp) (hprompt hp')
      hcues hnow (pollActs_eq_nil hrest) (pollActs_eq_nil hrest')
  · intro m hm
    rcases List.mem_append.mp hm with hm | hm
    · exact hr.no_tunnelCall (untunneled_of_spawn hsetup.hasNone hs) m hm
    · exact hr'.no_tunnelCall (untunneled_of_spawn hsetup.otherHasNone ht) m hm

/-- A refusal, and then answers that ask for a longer interval and for no tunnel. -/
def asksForNone : Setup where
  collaborators := { schedulerFails := true }
  source :=
    { answers := [.error (.status 500)]
      fallback := { status := .idle, checkin := .ofNat 7, schedules := [⟨3, true, []⟩] } }
  clockEnd := 1000000 * nanosPerSecond

/-- The same answers, but they ask for a tunnel, with credentials that cannot be decoded and at a
port that does not exist. -/
def asksForTunnel : Setup where
  transport := { isOpen := true }
  collaborators := { schedulerFails := true }
  source :=
    { answers := [.error (.status 500)]
      fallback :=
        { status := .required, port := 70000, credentials := "%", checkin := .ofNat 7,
          schedules := [⟨3, true, []⟩] } }
  clockEnd := 1000000 * nanosPerSecond

/-- Three requests, and activity is reported once. -/
def threeRequests : List Act :=
  [.start, .takeStart, .reportActivity, .wait 5000, .tick, .answered, .wait 10000, .tick,
    .answered, .wait 17000, .tick, .answered]

/-- The same, with other reports of activity and in other steps of time. -/
def threeRequestsBusier : List Act :=
  [.reportActivity, .start, .takeStart, .wait 1000, .reportActivity, .wait 5000, .tick,
    .reportActivity, .answered, .wait 10000, .tick, .answered, .wait 12000, .wait 17000,
    .reportActivity, .tick, .answered]

/-- Whether a run is told only to start, at its beginning. -/
def toldToStart (ms : List Move) : Bool :=
  match cues ms with
  | [⟨0, 0, .start⟩] => true
  | _ => false

lemma cues_of_toldToStart (h : toldToStart ms = true) : cues ms = [⟨0, 0, .start⟩] := by
  unfold toldToStart at h
  split at h
  · next heq => exact heq
  · cases h

/-- Eleven calls and records are shown of either run, and they are the same. -/
theorem shown_alike : ∃ s₀ t₀ ms ns s t, spawnWithSource {} asksForNone {} = .ok s₀ ∧
    spawnWithSource {} asksForTunnel {} = .ok t₀ ∧ Run s₀ ms s ∧ Run t₀ ns t ∧ Prompt ms ∧
      Prompt ns ∧ cues ms = cues ns ∧ s.world.now = 17000 ∧ t.world.now = 17000 ∧
      s.pollMoves = [] ∧ t.pollMoves = [] ∧ (shown ms).length = 11 ∧ shown ms = shown ns ∧
      ∀ m ∈ ms ++ ns, .closeTunnel ∉ m.events ∧
        ∀ parameters, .openTunnel parameters ∉ m.events := by
  obtain ⟨s₀, ms, s, hs, hr, h⟩ := exists_run {} asksForNone {} threeRequests
    (fun _ ms s => decide (Prompt ms) && toldToStart ms && decide (s.world.now = 17000) &&
      s.pollMoves.isEmpty && decide ((shown ms).length = 11)) (by decide +kernel)
  obtain ⟨t₀, ns, t, ht, hr', h'⟩ := exists_run {} asksForTunnel {} threeRequestsBusier
    (fun _ ns t => decide (Prompt ns) && toldToStart ns && decide (t.world.now = 17000) &&
      t.pollMoves.isEmpty) (by decide +kernel)
  simp only [Bool.and_eq_true, decide_eq_true_eq, List.isEmpty_iff] at h h'
  obtain ⟨⟨⟨⟨hp, htold⟩, hnow⟩, hrest⟩, hlength⟩ := h
  obtain ⟨⟨⟨hp', htold'⟩, hnow'⟩, hrest'⟩ := h'
  have hcues : cues ms = cues ns := by
    rw [cues_of_toldToStart htold, cues_of_toldToStart htold']
  have hsetup : asksForNone.SameButTunnel asksForTunnel := ⟨rfl, rfl, rfl, rfl, rfl, rfl⟩
  obtain ⟨hshown, hcalls⟩ := Run.blind_to_tunnel hsetup hs ht hr hr' hp hp' hcues
    (hnow.trans hnow'.symm) hrest hrest'
  exact ⟨s₀, t₀, ms, ns, s, t, hs, ht, hr, hr', hp, hp', hcues, hnow, hnow', hrest, hrest',
    hlength, hshown, hcalls⟩

end Service

end CheckIn
