/-
# Who calls the transport, and when

Two loops drive one transport.  A cycle opens a tunnel when none is there and the answer asks for
one, and closes it when one is there and the answer asks for none; the reaper closes it after a
check.  Nothing else calls the transport (`tunnelCalls_eventsOf`), so each call finds the transport
in the state that it is to be taken out of.

A call of close takes time, and while it is in flight the transport still reports open.  Hence
the other loop can call close as well, and then the second close that succeeds finds the
transport closed.  Such a close is counted by `idleCloses`.  Up to these, what was opened and
what was closed balance; and if no close begins while another one is in flight, there are none,
so that openings and closings alternate.
-/
import CheckIn.Proofs.Calls
import CheckIn.Proofs.Run

namespace CheckIn

/-- A call of the transport. -/
inductive TunnelCall
  | opening (parameters : TunnelParameters)
  | closing
deriving DecidableEq, Repr

/-- The observer of the transport. -/
def tunnelObserver : Observer TunnelCall where
  see
    | .openTunnel parameters => some (.opening parameters)
    | .closeTunnel => some .closing
    | _ => none
  see_log _ := rfl

/-- The calls of the transport among some events. -/
def tunnelCalls (events : List Event) : List TunnelCall := tunnelObserver.seen events

lemma opening_mem_tunnelCalls {parameters : TunnelParameters} {events : List Event} :
    .opening parameters ∈ tunnelCalls events ↔ .openTunnel parameters ∈ events := by
  refine tunnelObserver.mem_seen_iff_mem fun other => ?_
  cases other <;> simp [tunnelObserver]

lemma closing_mem_tunnelCalls {events : List Event} :
    .closing ∈ tunnelCalls events ↔ .closeTunnel ∈ events := by
  refine tunnelObserver.mem_seen_iff_mem fun other => ?_
  cases other <;> simp [tunnelObserver]

/-- Whether a cycle waits for the end of closing. -/
def PollPhase.isClosing : PollPhase → Bool
  | .closing _ _ => true
  | _ => false

/-- Whether the reaper waits for the end of closing. -/
def ReaperPhase.isClosing : ReaperPhase → Bool
  | .closing _ _ => true
  | _ => false

namespace Service

/-! ## The calls of an act -/

/-- The calls with which a cycle reacts to an answer. -/
def callsFor (s : Service) (response : Response) : List TunnelCall :=
  if s.closesFor response then [.closing]
  else if s.opensFor response then (s.accepted response).toList.map .opening
  else []

variable {s s' s₀ : Service} {act : Act} {ms : List Move} {m : Move}

/-- The dispatch of an answer leaves the transport alone. -/
lemma tunnelCalls_dispatchEvents (s : Service) (response : Response) :
    tunnelCalls (s.dispatchEvents response) = [] := by
  rw [tunnelCalls, seen_dispatchEvents]
  cases s.wantedTimeout response <;> cases response.stackVersions <;> rfl

/-- Only an answer and a check call the transport. -/
theorem tunnelCalls_eventsOf (s : Service) (act : Act) :
    tunnelCalls (s.eventsOf act) =
      match act with
      | .answered =>
        match s.phase with
        | .fetching _ (.ok response) => s.callsFor response
        | _ => []
      | .check => if s.reaper.closesNow s.world then [.closing] else []
      | _ => [] := by
  rw [tunnelCalls, seen_eventsOf]
  cases act with
  | answered =>
    cases hp : s.phase with
    | fetching done answer =>
      cases answer with
      | error code => rfl
      | ok response =>
        have hdispatch : tunnelObserver.seen (s.dispatchEvents response) = [] :=
          tunnelCalls_dispatchEvents s response
        simp only [seen_answerOutcome, seen_reaction, hdispatch, callsFor]
        cases s.closesFor response
        · cases s.opensFor response <;> cases s.accepted response <;> simp [tunnelObserver]
        · rfl
    | _ => rfl
  | closed =>
    cases hp : s.phase with
    | closing done response => exact tunnelCalls_dispatchEvents s response
    | _ => rfl
  | _ => rfl

/-! ## When the transport is called -/

/-- A move in which a cycle has a tunnel opened. -/
structure Move.OpensFor (m : Move) (parameters : TunnelParameters) : Prop where
  hasTunnel : m.before.world.hasTunnel = true
  isClosed : m.before.tunnelIsOpen = false
  isWanted : ∃ done response, m.act = .answered ∧
    m.before.phase = .fetching done (.ok response) ∧ response.status = .required ∧
      m.before.accepted response = some parameters

/-- A move in which a cycle or the reaper has the tunnel closed. -/
structure Move.Closes (m : Move) : Prop where
  isOpen : m.before.tunnelIsOpen = true
  isWanted : m.act = .check ∨ ∃ done response, m.act = .answered ∧
    m.before.phase = .fetching done (.ok response) ∧ response.status = .idle

lemma opening_mem_callsFor {response : Response} {parameters : TunnelParameters} :
    .opening parameters ∈ s.callsFor response ↔
      s.opensFor response = true ∧ s.accepted response = some parameters := by
  unfold callsFor
  cases hcloses : s.closesFor response with
  | true => simp [opensFor_of_closesFor hcloses]
  | false => cases s.opensFor response <;> simp

lemma closing_mem_callsFor {response : Response} :
    .closing ∈ s.callsFor response ↔ s.closesFor response = true := by
  unfold callsFor
  cases s.closesFor response <;> cases s.opensFor response <;> simp

/-- A tunnel is opened only if none is there. -/
theorem opensFor_of_mem {parameters : TunnelParameters} (h : .openTunnel parameters ∈ m.events) :
    m.OpensFor parameters := by
  obtain ⟨s, act⟩ := m
  have hcall := opening_mem_tunnelCalls.mpr h
  simp only [Move.events, tunnelCalls_eventsOf] at hcall
  split at hcall
  · split at hcall
    · next done response hp =>
      obtain ⟨hopens, haccepted⟩ := opening_mem_callsFor.mp hcall
      obtain ⟨ht, hstatus, hclosed⟩ := opensFor_iff.mp hopens
      exact ⟨ht, hclosed, done, response, rfl, hp, hstatus, haccepted⟩
    · simp at hcall
  · split at hcall <;> simp at hcall
  · simp at hcall

/-- A tunnel is closed only if one is there. -/
theorem closes_of_mem (h : .closeTunnel ∈ m.events) : m.Closes := by
  obtain ⟨s, act⟩ := m
  have hcall := closing_mem_tunnelCalls.mpr h
  simp only [Move.events, tunnelCalls_eventsOf] at hcall
  split at hcall
  · split at hcall
    · next done response hp =>
      obtain ⟨-, hstatus, hopen⟩ := closesFor_iff.mp (closing_mem_callsFor.mp hcall)
      exact ⟨hopen, .inr ⟨done, response, rfl, hp, hstatus⟩⟩
    · simp at hcall
  · split at hcall
    · next hc =>
      simp only [Reaper.closesNow, Bool.and_eq_true] at hc
      exact ⟨hc.1.2, .inl rfl⟩
    · simp at hcall
  · simp at hcall

lemma length_callsFor_le (s : Service) (response : Response) :
    (s.callsFor response).length ≤ 1 := by
  unfold callsFor
  repeat' split
  · simp
  · cases s.accepted response <;> simp
  · simp

/-- A move calls the transport at most once. -/
theorem length_tunnelCalls_le (m : Move) : (tunnelCalls m.events).length ≤ 1 := by
  rw [Move.events, tunnelCalls_eventsOf]
  split
  · split
    · exact length_callsFor_le _ _
    · simp
  · split <;> simp
  · simp

/-! ## What becomes of the tunnel -/

/-- Whether a move is the end of closing. -/
def Move.endsClosing (m : Move) : Bool :=
  match m.act with
  | .closed | .reaperClosed => true
  | _ => false

/-- Whether a move calls for a tunnel to be opened. -/
def Move.callsOpen (m : Move) : Bool :=
  (tunnelCalls m.events).any fun
    | .opening _ => true
    | .closing => false

/-- Whether a move calls for the tunnel to be closed. -/
def Move.callsClose (m : Move) : Bool := decide (.closing ∈ tunnelCalls m.events)

lemma Move.callsOpen_iff (m : Move) :
    m.callsOpen = true ↔ ∃ parameters, .openTunnel parameters ∈ m.events := by
  rw [callsOpen, List.any_eq_true]
  constructor
  · rintro ⟨call, hmem, hopening⟩
    cases call with
    | opening parameters => exact ⟨parameters, opening_mem_tunnelCalls.mp hmem⟩
    | closing => cases hopening
  · rintro ⟨parameters, hmem⟩
    exact ⟨_, opening_mem_tunnelCalls.mpr hmem, rfl⟩

lemma Move.callsClose_iff (m : Move) : m.callsClose = true ↔ .closeTunnel ∈ m.events := by
  rw [callsClose, decide_eq_true_iff, closing_mem_tunnelCalls]

/-- A success of the transport: `true` if a tunnel has been opened, and `false` if closing has
come to its end without a failure. -/
def Move.turn (m : Move) : Option Bool :=
  if m.callsOpen && !m.before.world.control.transport.refusesOpen then some true
  else if m.endsClosing && !m.before.world.control.transport.refusesClose then some false
  else none

/-- The successes of a run, the last one first. -/
def turns (ms : List Move) : List Bool := ms.filterMap Move.turn

/-- How often closing succeeded on a transport that was closed already. -/
def idleCloses (ms : List Move) : Nat :=
  ms.countP fun m => m.turn == some false && !m.before.tunnelIsOpen

lemma callsOpen_answered {done : Nat} {response : Response}
    (hp : s.phase = .fetching done (.ok response)) :
    (Move.mk s .answered).callsOpen =
      (s.opensFor response && (s.accepted response).isSome) := by
  rw [Bool.eq_iff_iff, Move.callsOpen_iff, Bool.and_eq_true, Option.isSome_iff_exists]
  have hcalls : tunnelCalls (Move.mk s .answered).events = s.callsFor response := by
    rw [Move.events, tunnelCalls_eventsOf, hp]
  constructor
  · rintro ⟨parameters, hmem⟩
    rw [← opening_mem_tunnelCalls, hcalls, opening_mem_callsFor] at hmem
    exact ⟨hmem.1, parameters, hmem.2⟩
  · rintro ⟨hopens, parameters, haccepted⟩
    refine ⟨parameters, ?_⟩
    rw [← opening_mem_tunnelCalls, hcalls, opening_mem_callsFor]
    exact ⟨hopens, haccepted⟩

/-- Whether the tunnel is opened or closed without a call of the service. -/
def Move.disturbs (m : Move) : Bool :=
  match m.act with
  | .outside (.tunnel _) => true
  | _ => false

/-- Nothing but the service opens or closes the tunnel. -/
def Undisturbed (ms : List Move) : Prop := ∀ m ∈ ms, m.disturbs = false

instance : Decidable (Undisturbed ms) := inferInstanceAs (Decidable (∀ m ∈ ms, m.disturbs = false))

/-- What does not answer opens nothing. -/
lemma callsOpen_eq_false {act : Act} (h : act ≠ .answered) : (Move.mk s act).callsOpen = false := by
  rw [Move.callsOpen, Move.events, tunnelCalls_eventsOf]
  cases act with
  | answered => exact absurd rfl h
  | check => cases s.reaper.closesNow s.world <;> rfl
  | _ => rfl

/-- An answer has a tunnel opened, or leaves the transport and the slot for reports alone. -/
lemma answered_cases (s : Service) :
    ((Move.mk s .answered).turn = some true ∧
        ∃ parameters, s.controlAfter .answered = s.world.control.afterOpening parameters) ∨
      ((Move.mk s .answered).turn = none ∧ s.controlAfter .answered = s.world.control) := by
  have hturn : (Move.mk s .answered).turn =
      if (Move.mk s .answered).callsOpen && !s.world.control.transport.refusesOpen then some true
      else none := rfl
  rw [hturn]
  cases hp : s.phase with
  | fetching done answer =>
    cases answer with
    | error code =>
      have hcalls : (Move.mk s .answered).callsOpen = false := by
        rw [Move.callsOpen, Move.events, tunnelCalls_eventsOf, hp]
        rfl
      rw [hcalls]
      exact .inr ⟨rfl, by simp [controlAfter, hp, answerOutcome]⟩
    | ok response =>
      simp only [callsOpen_answered hp, controlAfter, hp, control_answerOutcome, control_reaction]
      split
      · exact .inl ⟨rfl, _, rfl⟩
      · exact .inr ⟨rfl, rfl⟩
  | _ =>
    have hcalls : (Move.mk s .answered).callsOpen = false := by
      rw [Move.callsOpen, Move.events, tunnelCalls_eventsOf, hp]
      rfl
    rw [hcalls]
    exact .inr ⟨rfl, by simp [controlAfter, hp]⟩

/-- What is open after a move is what it opened, or what was open and it did not close. -/
lemma tunnelIsOpen_after (m : Move) (h : m.disturbs = false) :
    m.after.tunnelIsOpen = m.turn.getD m.before.tunnelIsOpen := by
  obtain ⟨s, act⟩ := m
  have hafter : (Move.mk s act).after.tunnelIsOpen = (s.controlAfter act).transport.isOpen := rfl
  rw [hafter]
  cases act with
  | answered =>
    rcases answered_cases s with ⟨hturn, parameters, hcontrol⟩ | ⟨hturn, hcontrol⟩
    · rw [hturn, hcontrol]
      rfl
    · rw [hturn, hcontrol]
      rfl
  | closed | reaperClosed =>
    rw [Move.turn, callsOpen_eq_false (by simp)]
    cases hr : s.world.control.transport.refusesClose <;>
      simp [controlAfter, TunnelControl.afterClosing, Move.endsClosing, tunnelIsOpen, hr]
  | reportActivity =>
    rw [Move.turn, callsOpen_eq_false (by simp)]
    simp only [controlAfter, Move.endsClosing]
    split <;> rfl
  | outside change =>
    rw [Move.turn, callsOpen_eq_false (by simp)]
    cases change with
    | tunnel isOpen => simp [Move.disturbs] at h
    | _ => rfl
  | _ =>
    rw [Move.turn, callsOpen_eq_false (by simp)]
    rfl

lemma Step.tunnelIsOpen_eq (h : Step s act s') (hd : (Move.mk s act).disturbs = false) :
    s'.tunnelIsOpen = (Move.mk s act).turn.getD s.tunnelIsOpen := by
  rw [h.eq_afterMove]
  exact tunnelIsOpen_after ⟨s, act⟩ hd

/-! ## Openings and closings balance -/

/-- A tunnel that has been opened was called for. -/
lemma exists_opensFor_of_turn (h : m.turn = some true) : ∃ parameters, m.OpensFor parameters := by
  have hcalls : m.callsOpen = true := by
    by_contra hno
    simp only [Move.turn] at h
    split at h <;> simp_all
  obtain ⟨parameters, hmem⟩ := m.callsOpen_iff.mp hcalls
  exact ⟨parameters, opensFor_of_mem hmem⟩

lemma tunnelIsOpen_of_turn_eq_some_true (h : m.turn = some true) :
    m.before.tunnelIsOpen = false := by
  obtain ⟨parameters, hopens⟩ := exists_opensFor_of_turn h
  exact hopens.isClosed

lemma turns_cons (m : Move) (ms : List Move) :
    turns (m :: ms) = m.turn.toList ++ turns ms := by
  cases h : m.turn <;> simp [turns, h]

lemma idleCloses_cons (m : Move) (ms : List Move) :
    idleCloses (m :: ms) = idleCloses ms +
      if m.turn == some false && !m.before.tunnelIsOpen then 1 else 0 :=
  List.countP_cons

lemma Undisturbed.of_cons (h : Undisturbed (m :: ms)) : Undisturbed ms :=
  (List.forall_mem_cons.mp h).2

/-- What was opened or there at first has been closed or is still there. -/
theorem Run.balance (hr : Run s₀ ms s) (hu : Undisturbed ms) :
    s₀.tunnelIsOpen.toNat + (turns ms).count true + idleCloses ms =
      (turns ms).count false + s.tunnelIsOpen.toNat := by
  induction hr with
  | nil => simp [turns, idleCloses]
  | @cons ms s s' act hr h ih =>
    have hbalance := ih hu.of_cons
    have hopen := h.tunnelIsOpen_eq (hu _ List.mem_cons_self)
    rw [hopen, turns_cons, List.count_append, List.count_append, idleCloses_cons]
    -- an opening found no tunnel, and a closing found one or is counted as idle
    cases hturn : (Move.mk s act).turn with
    | none => simpa using hbalance
    | some opened =>
      cases opened with
      | true =>
        have hclosed := tunnelIsOpen_of_turn_eq_some_true hturn
        simp only at hclosed
        simp [hclosed] at hbalance ⊢
        omega
      | false =>
        cases ho : s.tunnelIsOpen <;> simp [ho] at hbalance ⊢ <;> omega

/-! ## Closes in flight -/

/-- How many calls of close are in flight. -/
def closesInFlight (s : Service) : Nat :=
  s.phase.isClosing.toNat + s.reaper.phase.isClosing.toNat

/-- No close begins while another one is in flight. -/
def Separated (ms : List Move) : Prop :=
  ∀ m ∈ ms, m.callsClose = true → m.before.closesInFlight = 0

instance : Decidable (Separated ms) :=
  inferInstanceAs (Decidable (∀ m ∈ ms, m.callsClose = true → m.before.closesInFlight = 0))

lemma Separated.of_cons (h : Separated (m :: ms)) : Separated ms :=
  (List.forall_mem_cons.mp h).2

/-- An answer that calls for the tunnel to be closed is kept until the end of closing. -/
lemma isClosing_phase_answerOutcome (s : Service) (response : Response) :
    (s.answerOutcome (.ok response)).phase.isClosing = s.closesFor response := by
  rw [phase_answerOutcome]
  cases s.closesFor response <;> rfl

/-- A call of close is in flight from its beginning to its end. -/
lemma closesInFlight_after {act : Act} (h : Step s act s') :
    s'.closesInFlight + (Move.mk s act).endsClosing.toNat =
      s.closesInFlight + (Move.mk s act).callsClose.toNat := by
  have hflight : s'.closesInFlight =
      (s.phaseAfter act).isClosing.toNat + (s.reaperAfter act).phase.isClosing.toNat := by
    rw [h.eq_after]
    rfl
  rw [Move.callsClose, Move.events, tunnelCalls_eventsOf, hflight, closesInFlight]
  cases h with
  | @answered done answer hf hd =>
    cases answer with
    | error code =>
      simp [phaseAfter, reaperAfter, hf, answerOutcome, Move.endsClosing, PollPhase.isClosing]
    | ok response =>
      simp only [phaseAfter, reaperAfter, hf, isClosing_phase_answerOutcome, closing_mem_callsFor]
      simp [Move.endsClosing, PollPhase.isClosing]
      omega
  | closed hc hd =>
    simp [phaseAfter, reaperAfter, hc, Move.endsClosing, PollPhase.isClosing]
    omega
  | check hw hd =>
    cases hn : s.reaper.closesNow s.world <;>
      simp [phaseAfter, reaperAfter, hw, Reaper.phaseAfter, hn, Move.endsClosing,
        ReaperPhase.isClosing]
  | reaperClosed hc hd =>
    simp [phaseAfter, reaperAfter, hc, Move.endsClosing, ReaperPhase.isClosing]
  | tick hw _ _ => simp [phaseAfter, reaperAfter, hw, Move.endsClosing, PollPhase.isClosing]
  | endPolling hw _ => simp [phaseAfter, reaperAfter, hw, Move.endsClosing, PollPhase.isClosing]
  | leave hw _ => simp [phaseAfter, reaperAfter, hw, Move.endsClosing, ReaperPhase.isClosing]
  | _ => simp [phaseAfter, reaperAfter, Move.endsClosing]

lemma endsClosing_of_turn_eq_some_false (h : m.turn = some false) : m.endsClosing = true := by
  simp only [Move.turn] at h
  split at h
  · simp at h
  · split at h <;> simp_all

/-- Neither end of a call is the other end of a call. -/
lemma callsClose_of_endsClosing (h : m.endsClosing = true) : m.callsClose = false := by
  obtain ⟨s, act⟩ := m
  rw [Move.callsClose, Move.events, tunnelCalls_eventsOf]
  cases act <;> first | rfl | simp [Move.endsClosing] at h

/-- An open tunnel stays open until closing comes to its end. -/
lemma turn_eq_none_of_tunnelIsOpen (ho : m.before.tunnelIsOpen = true)
    (he : m.endsClosing = false) : m.turn = none := by
  cases hturn : m.turn with
  | none => rfl
  | some opened =>
    cases opened with
    | true =>
      have hclosed := tunnelIsOpen_of_turn_eq_some_true hturn
      rw [ho] at hclosed
      cases hclosed
    | false =>
      have hends := endsClosing_of_turn_eq_some_false hturn
      rw [he] at hends
      cases hends

/-- While a single call of close is in flight, the tunnel is open. -/
theorem Run.tunnelIsOpen_of_closing (hr : Run s₀ ms s) (hu : Undisturbed ms) (hsep : Separated ms)
    (h₀ : s₀.closesInFlight = 0) :
    s.closesInFlight ≤ 1 ∧ (0 < s.closesInFlight → s.tunnelIsOpen = true) := by
  induction hr with
  | nil => simp [h₀]
  | @cons ms s s' act hr h ih =>
    obtain ⟨hle, hopen⟩ := ih hu.of_cons hsep.of_cons
    have hflight := closesInFlight_after h
    have hafter := h.tunnelIsOpen_eq (hu _ List.mem_cons_self)
    cases hcalls : (Move.mk s act).callsClose with
    | true =>
      -- the call finds the tunnel open, and no other call is there to close it
      have hmem : .closeTunnel ∈ (Move.mk s act).events := (Move.callsClose_iff _).mp hcalls
      have hnone : s.closesInFlight = 0 := hsep _ List.mem_cons_self hcalls
      have hends : (Move.mk s act).endsClosing = false := by
        by_contra hends
        rw [callsClose_of_endsClosing (Bool.of_not_eq_false hends)] at hcalls
        cases hcalls
      have hbefore : s.tunnelIsOpen = true := (closes_of_mem hmem).isOpen
      rw [hcalls, hends, hnone] at hflight
      refine ⟨Nat.le_of_eq hflight, fun _ => ?_⟩
      rw [hafter, turn_eq_none_of_tunnelIsOpen hbefore hends]
      exact hbefore
    | false =>
      rw [hcalls] at hflight
      cases hends : (Move.mk s act).endsClosing with
      | true =>
        -- the only call in flight has come to its end
        rw [hends] at hflight
        simp only [Bool.toNat_true, Bool.toNat_false] at hflight
        exact ⟨by omega, fun _ => by omega⟩
      | false =>
        rw [hends] at hflight
        simp only [Bool.toNat_false, Nat.add_zero] at hflight
        rw [hflight]
        refine ⟨hle, fun hpos => ?_⟩
        rw [hafter, turn_eq_none_of_tunnelIsOpen (hopen hpos) hends]
        exact hopen hpos

/-- If no two calls of close overlap, each of them finds the tunnel open at its end. -/
theorem Run.idleCloses_eq_zero (hr : Run s₀ ms s) (hu : Undisturbed ms) (hsep : Separated ms)
    (h₀ : s₀.closesInFlight = 0) : idleCloses ms = 0 := by
  induction hr with
  | nil => rfl
  | @cons ms s s' act hr h ih =>
    rw [idleCloses_cons, ih hu.of_cons hsep.of_cons, if_neg]
    intro hlate
    simp only [Bool.and_eq_true, beq_iff_eq, Bool.not_eq_true'] at hlate
    have hends := endsClosing_of_turn_eq_some_false hlate.1
    have hflight := closesInFlight_after h
    rw [hends, callsClose_of_endsClosing hends] at hflight
    simp only [Bool.toNat_true, Bool.toNat_false] at hflight
    have hopen := (hr.tunnelIsOpen_of_closing hu.of_cons hsep.of_cons h₀).2 (by omega)
    rw [hlate.2] at hopen
    cases hopen

/-- If every closing that succeeded found the tunnel open, openings and closings alternate. -/
theorem Run.alternate (hr : Run s₀ ms s) (hu : Undisturbed ms) (hidle : idleCloses ms = 0) :
    (turns ms ++ [s₀.tunnelIsOpen]).IsChain (· ≠ ·) ∧
      (turns ms ++ [s₀.tunnelIsOpen]).head? = some s.tunnelIsOpen := by
  induction hr with
  | nil => simp [turns]
  | @cons ms s s' act hr h ih =>
    rw [idleCloses_cons] at hidle
    obtain ⟨hchain, hhead⟩ := ih hu.of_cons (by omega)
    have hafter := h.tunnelIsOpen_eq (hu _ List.mem_cons_self)
    rw [turns_cons, hafter]
    cases hturn : (Move.mk s act).turn with
    | none => exact ⟨hchain, hhead⟩
    | some opened =>
      -- the last success tells what is there, and this one changed it
      have hother : s.tunnelIsOpen ≠ opened := by
        cases opened with
        | true =>
          have hclosed := tunnelIsOpen_of_turn_eq_some_true hturn
          simp only at hclosed
          simp [hclosed]
        | false =>
          intro hclosed
          simp [hturn, hclosed] at hidle
      refine ⟨?_, rfl⟩
      rw [Option.toList_some, List.singleton_append, List.cons_append]
      cases hlist : turns ms ++ [s₀.tunnelIsOpen] with
      | nil => simp [hlist] at hhead
      | cons last turns =>
        rw [hlist] at hchain hhead
        obtain rfl := Option.some.inj hhead
        exact List.isChain_cons_cons.mpr ⟨hother.symm, hchain⟩

/-! ## Safety -/

lemma closesInFlight_of_spawn {config : Config} {setup : Setup} {world : World}
    (hs : spawnWithSource config setup world = .ok s₀) : s₀.closesInFlight = 0 := by
  obtain ⟨cadence, -, rfl⟩ := exists_cadence_of_spawn hs
  rfl

/-- Whatever happens to a service and in whatever order, tunnels are opened only by a cycle,
where none is there, for an answer that asks for one and whose credentials and port are accepted;
and the tunnel is closed only where one is there, by a check or for an answer that asks for none.
If nothing else changes the transport, what was opened and what was closed balance, up to closings
that come to their end on a closed transport.  If calls of close do not overlap there are none of
these, and openings and closings alternate. -/
theorem Run.tunnel_safety {config : Config} {setup : Setup} {world : World}
    (hs : spawnWithSource config setup world = .ok s₀) (hr : Run s₀ ms s) :
    (∀ m ∈ ms, (∀ parameters, .openTunnel parameters ∈ m.events → m.OpensFor parameters) ∧
      (.closeTunnel ∈ m.events → m.Closes) ∧ (tunnelCalls m.events).length ≤ 1) ∧
    (Undisturbed ms →
      s₀.tunnelIsOpen.toNat + (turns ms).count true + idleCloses ms =
        (turns ms).count false + s.tunnelIsOpen.toNat ∧
      (Separated ms →
        s₀.tunnelIsOpen.toNat + (turns ms).count true =
          (turns ms).count false + s.tunnelIsOpen.toNat ∧
        (turns ms ++ [s₀.tunnelIsOpen]).IsChain (· ≠ ·))) := by
  have h₀ := closesInFlight_of_spawn hs
  refine ⟨fun m _ => ⟨fun _ => opensFor_of_mem, closes_of_mem, length_tunnelCalls_le m⟩, ?_⟩
  intro hu
  have hbalance := hr.balance hu
  refine ⟨hbalance, fun hsep => ?_⟩
  have hidle := hr.idleCloses_eq_zero hu hsep h₀
  rw [hidle] at hbalance
  exact ⟨hbalance, (hr.alternate hu hidle).1⟩

/-! ## Two runs -/

/-- Cycles are 25 seconds apart, and a tunnel is closed after one second without activity. -/
def impatient : Config where
  pollFrequency := .ofSeconds 25
  inactivityTimeout := .ofSeconds 1

/-- No tunnel is there at first, and the first answer asks for one. -/
def wanted : Setup where
  hasTunnel := true
  source := { answers := [.ok { status := .required, port := 7000 }] }
  clockEnd := 1000000 * nanosPerSecond

/-- A tunnel is opened after 25 seconds, and closed by the check after 30 seconds. -/
def openingAndClosing : List Act :=
  [.start, .takeStart, .wait 25000, .tick, .answered, .takeReport, .wait 30000, .check,
    .reaperClosed]

/-- A tunnel that is opened and then closed. -/
theorem opened_and_closed : ∃ s₀ ms s, spawnWithSource impatient wanted {} = .ok s₀ ∧
    Run s₀ ms s ∧ Undisturbed ms ∧ Separated ms ∧ turns ms = [false, true] ∧
      (∃ m ∈ ms, ∃ parameters, m.OpensFor parameters) ∧ (∃ m ∈ ms, m.Closes) ∧
      (turns ms ++ [s₀.tunnelIsOpen]).IsChain (· ≠ ·) := by
  obtain ⟨s₀, ms, s, hs, hr, h⟩ := exists_run impatient wanted {} openingAndClosing
    (fun _ ms _ => decide (Undisturbed ms) && decide (Separated ms) &&
      (turns ms == [false, true]) && ms.any Move.callsOpen && ms.any Move.callsClose)
    (by decide +kernel)
  simp only [Bool.and_eq_true, decide_eq_true_eq, beq_iff_eq] at h
  obtain ⟨⟨⟨⟨hu, hsep⟩, hturns⟩, hopens⟩, hcloses⟩ := h
  obtain ⟨hcalls, hbalance⟩ := Run.tunnel_safety hs hr
  refine ⟨s₀, ms, s, hs, hr, hu, hsep, hturns, ?_, ?_, ((hbalance hu).2 hsep).2⟩
  · obtain ⟨m, hm, hopens⟩ := List.any_eq_true.mp hopens
    obtain ⟨parameters, hmem⟩ := m.callsOpen_iff.mp hopens
    exact ⟨m, hm, parameters, (hcalls m hm).1 parameters hmem⟩
  · obtain ⟨m, hm, hcloses⟩ := List.any_eq_true.mp hcloses
    exact ⟨m, hm, (hcalls m hm).2.1 (m.callsClose_iff.mp hcloses)⟩

/-- A tunnel is there at first, and the first answer asks for none. -/
def unwanted : Setup where
  hasTunnel := true
  transport := { isOpen := true }
  source := { answers := [.ok { status := .idle }] }
  clockEnd := 1000000 * nanosPerSecond

/-- Closing takes ten seconds.  A cycle begins it after 25 seconds, and the reaper after 30. -/
def closingTwice : List Act :=
  [.start, .takeStart, .wait 1000, .reportActivity, .takeReport, .wait 25000, .tick, .answered,
    .wait 30000, .check, .wait 35000, .closed, .wait 40000, .reaperClosed]

/-- Although nothing is late and nothing else changes the transport, openings and closings need
not balance: both calls of close succeed, and there was one tunnel. -/
theorem not_balanced : ¬ ∀ config setup world s₀ ms s,
    spawnWithSource config setup world = .ok s₀ → Run s₀ ms s → Prompt ms → Undisturbed ms →
      s₀.tunnelIsOpen.toNat + (turns ms).count true =
        (turns ms).count false + s.tunnelIsOpen.toNat := by
  intro hbalanced
  obtain ⟨s₀, ms, s, hs, hr, h⟩ := exists_run impatient unwanted { closeDelay := 10000 }
    closingTwice (fun s₀ ms s => decide (Prompt ms) && decide (Undisturbed ms) && s₀.tunnelIsOpen &&
      (turns ms == [false, false])) (by decide +kernel)
  simp only [Bool.and_eq_true, decide_eq_true_eq, beq_iff_eq] at h
  obtain ⟨⟨⟨hp, hu⟩, hopen⟩, hturns⟩ := h
  -- one tunnel, nothing opened, and two closings
  have hcount := hbalanced _ _ _ s₀ ms s hs hr hp hu
  rw [hopen, hturns] at hcount
  simp at hcount
  omega

end Service

end CheckIn
