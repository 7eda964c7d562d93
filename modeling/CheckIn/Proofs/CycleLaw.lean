/-
# The law of a cycle

From the tick to the end of a cycle other things can happen than the cycle itself: commands are
sent, the reaper looks at the tunnel, the collaborators change.  So the law of a cycle is about
the moves of the poll loop among all moves of that time (`InCycle`).  There are two or three of
them, and between them the poll loop keeps its cadence and stays armed (`InCycle.progress`).

From this it follows that the calls of a cycle are those of its stages up to the first one that
fails and ends it, what a cycle leaves alone that was cut before its dispatch, and that the poll
loop goes on with the next tick (`InCycle.law`).
-/
import CheckIn.Proofs.FetchTiming
import CheckIn.Proofs.Stages

namespace CheckIn

namespace Service

variable {s₀ s s' a d : Service} {act : Act} {ms past : List Move} {m : Move}
  {response : Response}

/-! ## The moves of a cycle -/

/-- One cycle, so far: its moves, the last one first, and the service after them.  It begins with
a tick, and until it ends the poll loop is busy. -/
inductive InCycle (s₀ : Service) : List Move → Service → Prop
  | tick {s : Service} (h : Step s₀ .tick s) : InCycle s₀ [⟨s₀, .tick⟩] s
  | cons {ms : List Move} {s s' : Service} {act : Act} (hc : InCycle s₀ ms s)
      (hbusy : s.busyUntil.isSome = true) (h : Step s act s') : InCycle s₀ (⟨s, act⟩ :: ms) s'

/-- The moves of the poll loop, the last one first. -/
def polling (ms : List Move) : List Move := ms.filter (·.act.isPolling)

/-- What an observer sees of some moves, the last one of which is first, in order. -/
def observed {α : Type} (observer : Observer α) (ms : List Move) : List α :=
  ms.reverse.flatMap fun m => observer.seen m.events

lemma observed_cons {α : Type} (observer : Observer α) (m : Move) (ms : List Move) :
    observed observer (m :: ms) = observed observer ms ++ observer.seen m.events := by
  simp [observed]

/-- The calls of some moves, in the order in which they are made. -/
def calls (ms : List Move) : List Event := observed callObserver ms

lemma calls_cons (m : Move) (ms : List Move) :
    calls (m :: ms) = calls ms ++ callObserver.seen m.events :=
  observed_cons callObserver m ms

/-- The cadence during a cycle, until its answer is dispatched. -/
def ticked (s₀ : Service) : Cadence :=
  { s₀.cadence with ticker := s₀.cadence.ticker.tick s₀.world.nanos }

/-- With the tick only the deadline moves on. -/
lemma ticked_spec (s₀ : Service) :
    (ticked s₀).interval = s₀.cadence.interval ∧ (ticked s₀).timeout = s₀.cadence.timeout ∧
      (ticked s₀).ticker.period = s₀.cadence.ticker.period := by
  -- the next deadline is a sum that must stay folded
  have hticker : ∀ ticker : Ticker, ticker.period = s₀.cadence.ticker.period →
      ∀ cadence : Cadence, cadence = { s₀.cadence with ticker } →
        cadence.interval = s₀.cadence.interval ∧ cadence.timeout = s₀.cadence.timeout ∧
          cadence.ticker.period = s₀.cadence.ticker.period := by
    rintro ticker hperiod cadence rfl
    exact ⟨rfl, rfl, hperiod⟩
  exact hticker _ (Ticker.period_tick _ _) _ rfl

/-- Whether an answer first has the tunnel closed. -/
def closesFirst (a : Service) : Except PollError Response → Bool
  | .ok response => a.closesFor response
  | .error _ => false

/-- The answer to the request of a cycle arrives at a service that has kept the cadence. -/
structure Arrives (s₀ a : Service) : Prop where
  phase : ∃ done, a.phase = .fetching done s₀.source.next.1
  cadence : a.cadence = ticked s₀

/-- How far a cycle has come. -/
inductive Progress (s₀ : Service) (ms : List Move) (s : Service) : Prop
  | fetching (harrives : Arrives s₀ s) (hmoves : polling ms = [⟨s₀, .tick⟩])
  | closing {a : Service} {done : Nat} {response : Response}
      (hanswer : s₀.source.next.1 = .ok response) (harrives : Arrives s₀ a)
      (hcloses : a.closesFor response = true) (hphase : s.phase = .closing done response)
      (hcadence : s.cadence = ticked s₀) (hmoves : polling ms = [⟨a, .answered⟩, ⟨s₀, .tick⟩])
  /-- The cycle ended when its answer arrived. -/
  | endedAtOnce {a : Service} (harrives : Arrives s₀ a)
      (hcloses : closesFirst a s₀.source.next.1 = false) (hphase : s.phase = .waiting)
      (hcadence : s.cadence = (a.answerOutcome s₀.source.next.1).cadence)
      (hmoves : polling ms = [⟨a, .answered⟩, ⟨s₀, .tick⟩])
  | endedAfterClosing {a d : Service} {done : Nat} {response : Response}
      (hanswer : s₀.source.next.1 = .ok response) (harrives : Arrives s₀ a)
      (hcloses : a.closesFor response = true) (hclosing : d.phase = .closing done response)
      (hkept : d.cadence = ticked s₀) (hphase : s.phase = .waiting)
      (hcadence : s.cadence = d.dispatchedCadence response)
      (hmoves : polling ms = [⟨d, .closed⟩, ⟨a, .answered⟩, ⟨s₀, .tick⟩])

lemma ne_waiting_of_busy (hbusy : s.busyUntil.isSome = true) : s.phase ≠ .waiting := by
  intro hwaiting
  rw [busyUntil, hwaiting] at hbusy
  cases hbusy

/-- What is not done by the poll loop leaves it alone. -/
lemma after_of_not_isPolling (s : Service) (hact : act.isPolling = false) :
    (s.after act).phase = s.phase ∧ (s.after act).cadence = s.cadence ∧
      (s.after act).armed = s.armed := by
  cases act <;> first | exact ⟨rfl, rfl, rfl⟩ | cases hact

/-- What is not done by the poll loop does not change how far a cycle has come. -/
lemma Progress.frame (hp : Progress s₀ ms s) (hact : act.isPolling = false) :
    Progress s₀ (⟨s, act⟩ :: ms) (s.after act) := by
  obtain ⟨hphase', hcadence', -⟩ := after_of_not_isPolling s hact
  have hmoves' : polling (⟨s, act⟩ :: ms) = polling ms := by simp [polling, hact]
  cases hp with
  | fetching harrives hmoves =>
    refine .fetching ⟨?_, hcadence'.trans harrives.cadence⟩ (hmoves'.trans hmoves)
    rw [hphase']
    exact harrives.phase
  | closing hanswer harrives hcloses hphase hcadence hmoves =>
    exact .closing hanswer harrives hcloses (hphase'.trans hphase) (hcadence'.trans hcadence)
      (hmoves'.trans hmoves)
  | endedAtOnce harrives hcloses hphase hcadence hmoves =>
    exact .endedAtOnce harrives hcloses (hphase'.trans hphase) (hcadence'.trans hcadence)
      (hmoves'.trans hmoves)
  | endedAfterClosing hanswer harrives hcloses hclosing hkept hphase hcadence hmoves =>
    exact .endedAfterClosing hanswer harrives hcloses hclosing hkept (hphase'.trans hphase)
      (hcadence'.trans hcadence) (hmoves'.trans hmoves)

/-- The answer ends the cycle, unless the tunnel is to be closed first. -/
lemma Progress.answered (harrives : Arrives s₀ s) (hmoves : polling ms = [⟨s₀, .tick⟩]) :
    Progress s₀ (⟨s, .answered⟩ :: ms) (s.after .answered) := by
  obtain ⟨done, hphase⟩ := harrives.phase
  have hmoves' : polling (⟨s, .answered⟩ :: ms) = [⟨s, .answered⟩, ⟨s₀, .tick⟩] := by
    rw [polling, List.filter_cons_of_pos rfl]
    exact congrArg _ hmoves
  have hphase' : (s.after .answered).phase = (s.answerOutcome s₀.source.next.1).phase := by
    simp [phaseAfter, hphase]
  have hcadence' : (s.after .answered).cadence = (s.answerOutcome s₀.source.next.1).cadence := by
    simp [cadenceAfter, hphase]
  rcases hanswer : s₀.source.next.1 with code | response
  · refine .endedAtOnce harrives (by rw [hanswer]; rfl) ?_ hcadence' hmoves'
    rw [hphase', hanswer]
    rfl
  · have hcloses' : closesFirst s s₀.source.next.1 = s.closesFor response := by
      rw [hanswer]
      rfl
    rw [hanswer, phase_answerOutcome] at hphase'
    cases hcloses : s.closesFor response with
    | true =>
      rw [hcloses, if_pos rfl] at hphase'
      refine .closing hanswer harrives hcloses hphase' ?_ hmoves'
      rw [hcadence', hanswer, cadence_answerOutcome, hcloses]
      exact harrives.cadence
    | false =>
      refine .endedAtOnce harrives (hcloses'.trans hcloses) ?_ hcadence' hmoves'
      rw [hphase', hcloses]
      exact if_neg Bool.false_ne_true

/-- The end of closing ends the cycle. -/
lemma Progress.closed {a : Service} {done : Nat} (hanswer : s₀.source.next.1 = .ok response)
    (harrives : Arrives s₀ a) (hcloses : a.closesFor response = true)
    (hphase : s.phase = .closing done response) (hcadence : s.cadence = ticked s₀)
    (hmoves : polling ms = [⟨a, .answered⟩, ⟨s₀, .tick⟩]) :
    Progress s₀ (⟨s, .closed⟩ :: ms) (s.after .closed) := by
  refine .endedAfterClosing hanswer harrives hcloses hphase hcadence rfl ?_ ?_
  · have hafter : (s.after .closed).cadence = (s.closeOutcome response).cadence := by
      simp [cadenceAfter, hphase]
    exact hafter.trans (adoption_cadence s response)
  · rw [polling, List.filter_cons_of_pos rfl]
    exact congrArg _ hmoves

/-- A cycle goes from its request to its answer, perhaps to the end of closing, and then ends. -/
theorem InCycle.progress (hc : InCycle s₀ ms s) : Progress s₀ ms s := by
  induction hc with
  | tick h =>
    rw [h.eq_after]
    exact .fetching ⟨⟨_, rfl⟩, rfl⟩ rfl
  | @cons ms s s' act hc hbusy h ih =>
    rw [h.eq_after]
    cases hact : act.isPolling with
    | false => exact ih.frame hact
    | true =>
      -- a poll loop that is busy can only go on with what it is busy with
      have hwaiting := ne_waiting_of_busy hbusy
      cases h with
      | answered hf hdone =>
        cases ih with
        | fetching harrives hmoves => exact .answered harrives hmoves
        | closing hanswer harrives hcloses hphase hcadence hmoves =>
          rw [hphase] at hf
          cases hf
        | endedAtOnce _ _ hphase _ _ => exact absurd hphase hwaiting
        | endedAfterClosing _ _ _ _ _ hphase _ _ => exact absurd hphase hwaiting
      | closed hclosing hdone =>
        cases ih with
        | fetching harrives hmoves =>
          obtain ⟨done, hphase⟩ := harrives.phase
          rw [hphase] at hclosing
          cases hclosing
        | closing hanswer harrives hcloses hphase hcadence hmoves =>
          exact .closed hanswer harrives hcloses hphase hcadence hmoves
        | endedAtOnce _ _ hphase _ _ => exact absurd hphase hwaiting
        | endedAfterClosing _ _ _ _ _ hphase _ _ => exact absurd hphase hwaiting
      | takeStart hw _ => exact absurd hw hwaiting
      | takeStop hw _ => exact absurd hw hwaiting
      | endPolling hw _ => exact absurd hw hwaiting
      | tick hw _ _ => exact absurd hw hwaiting
      | _ => cases hact

/-- A cycle begins with a poll loop that is armed. -/
lemma InCycle.armed_start (hc : InCycle s₀ ms s) : s₀.armed = true := by
  induction hc with
  | tick h =>
    cases h with
    | tick hw ha hdue => exact ha
  | cons hc hbusy h ih => exact ih

/-- A poll loop that is busy stays armed. -/
lemma InCycle.armed_eq (hc : InCycle s₀ ms s) : s.armed = true := by
  induction hc with
  | tick h =>
    cases h with
    | tick hw ha hdue => exact ha
  | @cons ms s s' act hc hbusy h ih =>
    have hwaiting := ne_waiting_of_busy hbusy
    rw [h.eq_after]
    cases h with
    | takeStart hw _ => exact absurd hw hwaiting
    | takeStop hw _ => exact absurd hw hwaiting
    | outside change => cases change <;> exact ih
    | _ => exact ih

/-! ## The law -/

/-- The call of the tick. -/
lemma seen_tick (s₀ : Service) :
    callObserver.seen (Move.mk s₀ .tick).events = [.fetch s₀.cadence.timeout] := rfl

lemma Arrives.events_eq (harrives : Arrives s₀ a) :
    (Move.mk a .answered).events = (a.answerOutcome s₀.source.next.1).events := by
  obtain ⟨done, hphase⟩ := harrives.phase
  simp [Move.events, eventsOf, hphase]

lemma Arrives.control_eq (harrives : Arrives s₀ a) :
    (Move.mk a .answered).after.world.control = (a.answerOutcome s₀.source.next.1).control := by
  obtain ⟨done, hphase⟩ := harrives.phase
  simp [Move.after, controlAfter, hphase]

/-- A cycle that ends with its answer makes the calls of its stages. -/
lemma Arrives.calls_eq (harrives : Arrives s₀ a)
    (hcloses : closesFirst a s₀.source.next.1 = false) :
    calls [⟨a, .answered⟩, ⟨s₀, .tick⟩] = callsOf (reached (plan s₀ a a)) := by
  rw [callsOf_reached_plan]
  simp only [calls_cons, seen_tick, harrives.events_eq]
  rcases hanswer : s₀.source.next.1 with code | response
  · rfl
  · rw [hanswer, closesFirst] at hcloses
    dsimp only
    rw [seen_answerOutcome, seen_tunnelStages, seen_dispatchStages, hcloses]
    cases a.reacts response <;> rfl

/-- A cycle that has the tunnel closed first makes the calls of its stages. -/
lemma Arrives.calls_eq_of_closes {done : Nat} (harrives : Arrives s₀ a)
    (hanswer : s₀.source.next.1 = .ok response) (hcloses : a.closesFor response = true)
    (hclosing : d.phase = .closing done response) :
    calls [⟨d, .closed⟩, ⟨a, .answered⟩, ⟨s₀, .tick⟩] = callsOf (reached (plan s₀ a d)) := by
  have hclosed : callObserver.seen (Move.mk d .closed).events =
      callObserver.seen (d.dispatchEvents response) := by
    rw [Move.events, seen_eventsOf]
    simp [hclosing]
  rw [callsOf_reached_plan, hanswer]
  simp only [calls_cons, seen_tick, harrives.events_eq, hclosed, hanswer, seen_answerOutcome,
    seen_tunnelStages, seen_dispatchStages, hcloses]
  rfl

/-- What is the case after a cycle, whose answer arrived at `a` and was dispatched by `d`. -/
structure Lawful (s₀ : Service) (ms : List Move) (s a d : Service) : Prop where
  /-- The answer is dispatched when it arrives, unless the tunnel is closed first. -/
  moves : polling ms = if closesFirst a s₀.source.next.1 then
      [⟨d, .closed⟩, ⟨a, .answered⟩, ⟨s₀, .tick⟩]
    else [⟨a, .answered⟩, ⟨s₀, .tick⟩]
  sameUnlessClosed : closesFirst a s₀.source.next.1 = false → d = a
  kept : a.cadence = ticked s₀ ∧ d.cadence = ticked s₀
  /-- The calls are those of the stages up to the first one that cuts the cycle. -/
  calls : calls (polling ms) = callsOf (reached (plan s₀ a d))
  ordered : ((Service.calls (polling ms)).map Event.place).Pairwise (· < ·)
  /-- A cycle that was cut before its dispatch leaves everything alone but the deadline. -/
  cut : (∀ schedules, .apply schedules ∉ Service.calls (polling ms)) →
    s.cadence.interval = s₀.cadence.interval ∧ s.cadence.timeout = s₀.cadence.timeout ∧
      s.cadence.ticker.period = s₀.cadence.ticker.period ∧ s.armed = s₀.armed ∧
        ∀ m ∈ polling ms, m.after.world.control = m.before.world.control ∧
          ∀ event ∈ m.events, event.isActivityRecord = false
  /-- Any other cycle has put everything into effect but the stack targets that were refused. -/
  served : ∀ schedules, .apply schedules ∈ Service.calls (polling ms) →
    ∃ response, s₀.source.next.1 = .ok response ∧ schedules = response.schedules ∧
      .collect response.logRequests ∈ Service.calls (polling ms) ∧
        s.cadence = d.dispatchedCadence response
  /-- The poll loop goes on with the next tick. -/
  goesOn : s.phase = .waiting ∧ s.armed = true ∧
    ∀ instant, s.cadence.ticker.dueAt ≤ instant → (process.moveTo instant s).can .tick = true

/-- A cycle that was cut before its dispatch changes nothing but the deadline. -/
lemma Arrives.cut (harrives : Arrives s₀ a) (hcloses : closesFirst a s₀.source.next.1 = false)
    (hcut : ∀ schedules, .apply schedules ∉ callsOf (reached (plan s₀ a a))) :
    (a.answerOutcome s₀.source.next.1).cadence = ticked s₀ ∧
      (a.answerOutcome s₀.source.next.1).control = a.world.control ∧
      ∀ event ∈ (a.answerOutcome s₀.source.next.1).events, event.isActivityRecord = false := by
  rcases hanswer : s₀.source.next.1 with code | response
  · refine ⟨harrives.cadence, rfl, ?_⟩
    simp [answerOutcome, Event.isActivityRecord]
  · rw [hanswer, closesFirst] at hcloses
    have hreacts : a.reacts response = false := by
      by_contra hreacts
      rw [Bool.not_eq_false] at hreacts
      exact hcut _ (apply_mem_iff.mpr ⟨response, hanswer, rfl, .inr hreacts⟩)
    refine ⟨?_, control_of_not_reacts hreacts,
      isActivityRecord_of_not_reacts hcloses hreacts⟩
    rw [cadence_answerOutcome, hcloses, hreacts]
    exact harrives.cadence

/-- The moves of a cycle that was cut before its dispatch leave the tunnel alone. -/
lemma Arrives.frame_of_cut (harrives : Arrives s₀ a)
    (hcloses : closesFirst a s₀.source.next.1 = false)
    (hcut : ∀ schedules, .apply schedules ∉ callsOf (reached (plan s₀ a a))) :
    ∀ m ∈ [Move.mk a .answered, Move.mk s₀ .tick],
      m.after.world.control = m.before.world.control ∧
        ∀ event ∈ m.events, event.isActivityRecord = false := by
  obtain ⟨-, hcontrol, hrecords⟩ := harrives.cut hcloses hcut
  rw [← harrives.events_eq] at hrecords
  refine List.forall_mem_cons.mpr ⟨⟨harrives.control_eq.trans hcontrol, hrecords⟩, ?_⟩
  refine List.forall_mem_cons.mpr ⟨⟨rfl, ?_⟩, List.forall_mem_nil _⟩
  intro event hmem
  obtain rfl := List.mem_singleton.mp hmem
  rfl

/-- A poll loop that waits and is armed takes the next tick from its deadline on. -/
lemma can_tick_of_waiting (hphase : s.phase = .waiting) (harmed : s.armed = true) {instant : Nat}
    (hdue : s.cadence.ticker.dueAt ≤ instant) : (process.moveTo instant s).can .tick = true := by
  simp [can, process, isWaiting, hphase, harmed, Ticker.isDue, hdue]

/-- The law of a cycle that ends with its answer. -/
lemma Arrives.lawful (harrives : Arrives s₀ a) (hcloses : closesFirst a s₀.source.next.1 = false)
    (hphase : s.phase = .waiting)
    (hcadence : s.cadence = (a.answerOutcome s₀.source.next.1).cadence)
    (hmoves : polling ms = [⟨a, .answered⟩, ⟨s₀, .tick⟩]) (harmed₀ : s₀.armed = true)
    (harmed : s.armed = true) : Lawful s₀ ms s a a := by
  have hcalls : calls (polling ms) = callsOf (reached (plan s₀ a a)) := by
    rw [hmoves]
    exact harrives.calls_eq hcloses
  constructor
  · rw [hmoves, hcloses]
    rfl
  · exact fun _ => rfl
  · exact ⟨harrives.cadence, harrives.cadence⟩
  · exact hcalls
  · rw [hcalls]
    exact ordered_reached_plan s₀ a a
  · rw [hcalls]
    intro hcut
    obtain ⟨hkept, -, -⟩ := harrives.cut hcloses hcut
    obtain ⟨hinterval, htimeout, hperiod⟩ := ticked_spec s₀
    rw [← hkept, ← hcadence] at hinterval htimeout hperiod
    refine ⟨hinterval, htimeout, hperiod, harmed.trans harmed₀.symm, ?_⟩
    rw [hmoves]
    exact harrives.frame_of_cut hcloses hcut
  · rw [hcalls]
    intro schedules hmem
    obtain ⟨response, hanswer, hschedules, hdispatched⟩ := apply_mem_iff.mp hmem
    rw [hanswer, closesFirst] at hcloses
    have hreacts := hdispatched.resolve_left (by simp [hcloses])
    refine ⟨response, hanswer, hschedules, collect_mem hanswer hdispatched, ?_⟩
    rw [hcadence, hanswer, cadence_answerOutcome, hcloses, hreacts]
    exact if_neg Bool.false_ne_true
  · exact ⟨hphase, harmed, fun instant => can_tick_of_waiting hphase harmed⟩

/-- The law of a cycle that has the tunnel closed first. -/
lemma Arrives.lawful_of_closes {done : Nat} (harrives : Arrives s₀ a)
    (hanswer : s₀.source.next.1 = .ok response) (hcloses : a.closesFor response = true)
    (hclosing : d.phase = .closing done response) (hkept : d.cadence = ticked s₀)
    (hphase : s.phase = .waiting) (hcadence : s.cadence = d.dispatchedCadence response)
    (hmoves : polling ms = [⟨d, .closed⟩, ⟨a, .answered⟩, ⟨s₀, .tick⟩])
    (harmed : s.armed = true) : Lawful s₀ ms s a d := by
  have hcalls : calls (polling ms) = callsOf (reached (plan s₀ a d)) := by
    rw [hmoves]
    exact harrives.calls_eq_of_closes hanswer hcloses hclosing
  have hfirst : closesFirst a s₀.source.next.1 = true := by
    rw [hanswer]
    exact hcloses
  constructor
  · rw [hmoves, hfirst]
    rfl
  · intro hother
    rw [hfirst] at hother
    cases hother
  · exact ⟨harrives.cadence, hkept⟩
  · exact hcalls
  · rw [hcalls]
    exact ordered_reached_plan s₀ a d
  · -- closing does not cut the cycle
    rw [hcalls]
    intro hcut
    exact absurd (apply_mem_iff.mpr ⟨response, hanswer, rfl, .inl hcloses⟩) (hcut _)
  · rw [hcalls]
    intro schedules hmem
    obtain ⟨other, hother, hschedules, hdispatched⟩ := apply_mem_iff.mp hmem
    obtain rfl := Except.ok.inj (hanswer.symm.trans hother)
    exact ⟨response, hanswer, hschedules, collect_mem hanswer hdispatched, hcadence⟩
  · exact ⟨hphase, harmed, fun instant => can_tick_of_waiting hphase harmed⟩

/-- Every cycle obeys its law. -/
theorem InCycle.lawful (hc : InCycle s₀ ms s) (hidle : s.busyUntil = none) :
    ∃ a d, Lawful s₀ ms s a d := by
  cases hc.progress with
  | fetching harrives hmoves =>
    obtain ⟨done, hphase⟩ := harrives.phase
    rw [busyUntil, hphase] at hidle
    cases hidle
  | closing hanswer harrives hcloses hphase hcadence hmoves =>
    rw [busyUntil, hphase] at hidle
    cases hidle
  | endedAtOnce harrives hcloses hphase hcadence hmoves =>
    exact ⟨_, _, harrives.lawful hcloses hphase hcadence hmoves hc.armed_start hc.armed_eq⟩
  | endedAfterClosing hanswer harrives hcloses hclosing hkept hphase hcadence hmoves =>
    exact ⟨_, _, harrives.lawful_of_closes hanswer hcloses hclosing hkept hphase hcadence hmoves
      hc.armed_eq⟩

/-! ## Every cycle ends -/

/-- A poll loop that is busy can wait until it has done what it is busy with. -/
lemma InCycle.await {done : Nat} (hc : InCycle s₀ ms s) (hbusy : s.busyUntil = some done) :
    ∃ later s', InCycle s₀ (later ++ ms) s' ∧ s'.phase = s.phase ∧ done ≤ s'.world.now := by
  by_cases hdone : done ≤ s.world.now
  · exact ⟨[], s, hc, rfl, hdone⟩
  · have hsome : s.busyUntil.isSome = true := by rw [hbusy]; rfl
    exact ⟨[⟨s, .wait done⟩], _, hc.cons hsome (.wait (Nat.lt_of_not_le hdone)), rfl, Nat.le_refl _⟩

/-- Closing comes to its end, and with it the cycle. -/
lemma InCycle.exists_end_of_closing {done : Nat} (hc : InCycle s₀ ms s)
    (hphase : s.phase = .closing done response) :
    ∃ later s', InCycle s₀ (later ++ ms) s' ∧ s'.busyUntil = none := by
  obtain ⟨later, s₁, hc₁, hphase₁, hdone⟩ := hc.await (by rw [busyUntil, hphase])
  rw [hphase] at hphase₁
  have hstep : Step s₁ .closed (s₁.after .closed) :=
    step_iff.mpr ⟨by simp [can, hphase₁, hdone], rfl⟩
  exact ⟨⟨s₁, .closed⟩ :: later, _, hc₁.cons (by rw [busyUntil, hphase₁]; rfl) hstep, rfl⟩

/-- Whatever has happened in a cycle, it can come to its end. -/
theorem InCycle.exists_end (hc : InCycle s₀ ms s) :
    ∃ later s', InCycle s₀ (later ++ ms) s' ∧ s'.busyUntil = none := by
  cases hphase : s.phase with
  | waiting | ended => exact ⟨[], s, hc, by rw [busyUntil, hphase]⟩
  | closing done response => exact hc.exists_end_of_closing hphase
  | fetching done answer =>
    obtain ⟨later, s₁, hc₁, hphase₁, hdone⟩ := hc.await (by rw [busyUntil, hphase])
    rw [hphase] at hphase₁
    have hstep : Step s₁ .answered (s₁.after .answered) :=
      step_iff.mpr ⟨by simp [can, hphase₁, hdone], rfl⟩
    have hc₂ := hc₁.cons (by rw [busyUntil, hphase₁]; rfl) hstep
    cases hphase₂ : (s₁.after .answered).phase with
    | waiting | ended => exact ⟨⟨s₁, .answered⟩ :: later, _, hc₂, by rw [busyUntil, hphase₂]⟩
    | closing done response =>
      obtain ⟨more, s', hc', hidle⟩ := hc₂.exists_end_of_closing hphase₂
      refine ⟨more ++ ⟨s₁, .answered⟩ :: later, s', ?_, hidle⟩
      rw [List.append_assoc]
      exact hc'
    | fetching done again =>
      -- an answer leads to no other request
      exfalso
      rw [phase_after, phaseAfter, hphase₁] at hphase₂
      cases answer with
      | error code => cases hphase₂
      | ok response =>
        simp only [phase_answerOutcome] at hphase₂
        split at hphase₂ <;> cases hphase₂

/-- A poll loop that is busy in a run is in a cycle that began in this run, if it was not busy at
first. -/
theorem Run.exists_inCycle (hr : Run s₀ ms s) (h₀ : s₀.busyUntil = none)
    (hbusy : s.busyUntil.isSome = true) :
    ∃ recent past s₁, ms = recent ++ past ∧ Run s₀ past s₁ ∧ InCycle s₁ recent s := by
  induction hr with
  | nil =>
    rw [h₀] at hbusy
    cases hbusy
  | @cons ms s s' act hr h ih =>
    rw [h.eq_after] at hbusy
    rcases busy_after hbusy with htick | ⟨hbefore, -, -⟩
    · obtain rfl : act = .tick := Move.act_eq_tick htick
      exact ⟨[⟨s, .tick⟩], ms, s, rfl, hr, .tick h⟩
    · obtain ⟨recent, past, s₁, rfl, hpast, hc⟩ := ih hbefore
      exact ⟨⟨s, act⟩ :: recent, past, s₁, rfl, hpast, hc.cons hbefore h⟩

/-- From every state and with every answer, whatever fails and whatever happens meanwhile: a cycle
can come to its end, and then its calls are those of its stages, in their order, up to the first
one that fails and ends it; a cycle that was cut before its dispatch has left everything alone but
the deadline; any other one has put into effect what it dispatched; and the poll loop goes on with
the next tick. -/
theorem InCycle.law (hc : InCycle s₀ ms s) :
    (∃ later s', InCycle s₀ (later ++ ms) s' ∧ s'.busyUntil = none) ∧
      (s.busyUntil = none → ∃ a d, Lawful s₀ ms s a d) :=
  ⟨hc.exists_end, hc.lawful⟩

/-! ## A cycle in which much fails -/

/-- Whether some moves are those of a cycle. -/
def isCycle : List Move → Bool
  | [] => false
  | [m] => m.isTick
  | m :: past => m.before.busyUntil.isSome && isCycle past

lemma inCycle_of_run (hr : Run s₀ ms s) (h : isCycle ms = true) : InCycle s₀ ms s := by
  induction hr with
  | nil => cases h
  | @cons ms s s' act hr hstep ih =>
    cases ms with
    | nil =>
      cases hr
      obtain rfl : act = .tick := Move.act_eq_tick h
      exact .tick hstep
    | cons m past =>
      obtain ⟨hbusy, hcycle⟩ := Bool.and_eq_true_iff.mp h
      exact (ih hcycle).cons hbusy hstep

/-- A tunnel is there that cannot be closed, the scheduler and the reconciler fail, and each
answer asks for another interval and speaks of stacks, but of none. -/
def failing : Setup where
  hasTunnel := true
  transport := { isOpen := true, refusesClose := true }
  collaborators := { schedulerFails := true, reconcilerFails := true }
  source :=
    { delays := [300]
      fallback := { status := .idle, checkin := .ofNat 7, stackTargets := some [] } }
  clockEnd := 1000000 * nanosPerSecond

/-- While the tunnel is being closed, its use is reported and polling is stopped. -/
def stoppedMeanwhile : List Act :=
  [.tick, .outside (.timeoutRefusal (some (.status 503))), .wait 5300, .answered, .reportActivity,
    .takeReport, .stop, .wait 5800, .closed]

/-- All calls are made although four of them fail, and the next tick is taken all the same. -/
theorem called_in_order : ∃ s₀ ms s, InCycle s₀ ms s ∧ s.busyUntil = none ∧
    (calls (polling ms)).map Event.place = [0, 1, 2, 3, 4, 5] ∧ ∃ a d, Lawful s₀ ms s a d := by
  obtain ⟨-, -, s₀, -, -, h⟩ := exists_run {} failing { closeDelay := 500 }
    [.start, .takeStart, .wait 5000]
    (fun _ _ s₀ => (perform s₀ [] stoppedMeanwhile).any fun (ms, s) =>
      isCycle ms && decide (s.busyUntil = none) &&
        decide ((calls (polling ms)).map Event.place = [0, 1, 2, 3, 4, 5])) (by decide +kernel)
  obtain ⟨⟨ms, s⟩, hperform, h⟩ := (Option.any_eq_true _ _).mp h
  simp only [Bool.and_eq_true, decide_eq_true_eq] at h
  obtain ⟨⟨hcycle, hidle⟩, hplaces⟩ := h
  have hc := inCycle_of_run (run_of_perform .nil hperform) hcycle
  exact ⟨s₀, ms, s, hc, hidle, hplaces, (InCycle.law hc).2 hidle⟩

end Service

end CheckIn
