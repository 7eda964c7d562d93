/-
# The stages of a cycle

A cycle goes through its stages in a fixed order: the request, the reaction with the tunnel, and
the four parts of the dispatch (`Service.plan`).  Some stages end the cycle if they fail, and the
others do not (`StageKind.endsCycle`), so some stages are not reached.  This file says which calls
the stages that are reached make (`Service.callsOf_reached_plan`), that calls stand in a fixed
order whatever fails (`Service.ordered_reached_plan`), and what a failed reaction leaves alone.
-/
import CheckIn.Proofs.Calls

namespace CheckIn

/-! ## Stages -/

/-- What a stage of a cycle does. -/
inductive StageKind
  /-- The answer is requested. -/
  | fetch
  /-- The credentials for a tunnel are decrypted. -/
  | credentials
  /-- The range of the wanted port is checked. -/
  | port
  | opening
  | closing
  /-- The schedules are handed over. -/
  | schedules
  /-- Logs are asked for. -/
  | logs
  /-- Another interval is adopted. -/
  | interval
  /-- The stack targets are handed over. -/
  | reconciling
deriving DecidableEq

/-- Whether the failure of a stage ends the cycle. -/
def StageKind.endsCycle : StageKind → Bool
  | fetch | credentials | port | opening | reconciling => true
  | closing | schedules | logs | interval => false

/-- A stage of a cycle. -/
structure Stage where
  kind : StageKind
  /-- The call that is made if the stage is reached, if there is one. -/
  call : Option Event
  /-- Whether the stage fails if it is reached. -/
  fails : Bool

/-- Whether a cycle is cut right after a stage. -/
def Stage.cuts (stage : Stage) : Bool := stage.fails && stage.kind.endsCycle

/-- The calls that some stages make, in order. -/
def callsOf (stages : List Stage) : List Event := stages.filterMap Stage.call

/-- The stages that are reached: all up to the first one after which the cycle is cut. -/
def reached : List Stage → List Stage
  | [] => []
  | stage :: later => stage :: if stage.cuts then [] else reached later

variable {stage : Stage} {stages later : List Stage}

@[simp] lemma callsOf_nil : callsOf [] = [] := rfl

@[simp] lemma callsOf_append : callsOf (stages ++ later) = callsOf stages ++ callsOf later :=
  List.filterMap_append

@[simp] lemma callsOf_cons :
    callsOf (stage :: later) = stage.call.toList ++ callsOf later := by
  cases h : stage.call <;> simp [callsOf, h]

lemma reached_cons_of_not_cuts (h : stage.cuts = false) :
    reached (stage :: later) = stage :: reached later := by
  rw [reached, if_neg (by simp [h])]

/-- What comes later is reached if nothing before it cuts the cycle. -/
lemma reached_append :
    reached (stages ++ later) =
      reached stages ++ if stages.any Stage.cuts then [] else reached later := by
  induction stages with
  | nil => rfl
  | cons stage stages ih =>
    cases hcuts : stage.cuts with
    | true => simp [reached, hcuts]
    | false => simp [reached, hcuts, ih]

/-- Only the end is cut off. -/
lemma reached_sublist : ∀ stages, (reached stages).Sublist stages
  | [] => .slnil
  | stage :: later => by
    rw [reached]
    split
    · exact (List.nil_sublist later).cons_cons stage
    · exact (reached_sublist later).cons_cons stage

/-! ## The order of the calls -/

/-- Where a call stands in a cycle.  To open and to close stand at the same place. -/
def Event.place : Event → Nat
  | .fetch _ => 0
  | .openTunnel _ | .closeTunnel => 1
  | .apply _ => 2
  | .collect _ => 3
  | .setTimeout _ | .adopt _ => 4
  | .reconcile _ => 5
  | .log _ => 6

/-- Whether a report of activity was coalesced or dropped. -/
def Event.isActivityRecord : Event → Bool
  | .log .activityCoalesced | .log .activityDropped => true
  | _ => false

/-- The observer of all calls. -/
def callObserver : Observer Event where
  see
    | .log _ => none
    | call => some call
  see_log _ := rfl

namespace Service

variable {s₀ a d : Service} {response : Response}

/-! ## The plan of a cycle -/

/-- The stages of the reaction to an answer that arrives at `a`.  If the tunnel is to be closed,
closing comes to its end at `d`. -/
def tunnelStages (a d : Service) (response : Response) : List Stage :=
  if a.closesFor response then
    [⟨.closing, some .closeTunnel, d.world.control.transport.refusesClose⟩]
  else if a.opensFor response then
    [⟨.credentials, none,
        !(decodeCredentials a.decrypt a.identity.edgeId response.credentials).isOk⟩,
      ⟨.port, none, !(remotePort response.port).isOk⟩,
      ⟨.opening, (a.accepted response).map .openTunnel, a.world.control.transport.refusesOpen⟩]
  else []

/-- The stages of the dispatch of an answer. -/
def dispatchStages (d : Service) (response : Response) : List Stage :=
  ⟨.schedules, some (.apply response.schedules), d.collaborators.schedulerFails⟩ ::
    ⟨.logs, some (.collect response.logRequests), false⟩ ::
      ((d.wantedTimeout response).toList.map
        fun timeout => ⟨.interval, some (.setTimeout timeout), d.timeoutRefusal.isSome⟩) ++
      response.stackVersions.toList.map
        fun versions => ⟨.reconciling, some (.reconcile versions), d.collaborators.reconcilerFails⟩

/-- The stages of a cycle that begins at `s₀`, whose answer arrives at `a` and is dispatched by
`d`. -/
def plan (s₀ a d : Service) : List Stage :=
  ⟨.fetch, some (.fetch s₀.cadence.timeout), !s₀.source.next.1.isOk⟩ ::
    match s₀.source.next.1 with
    | .error _ => []
    | .ok response => tunnelStages a d response ++ dispatchStages d response

/-- No stage of the dispatch but the last one can end the cycle. -/
lemma reached_dispatchStages (d : Service) (response : Response) :
    reached (dispatchStages d response) = dispatchStages d response := by
  unfold dispatchStages
  cases d.wantedTimeout response <;> cases response.stackVersions <;>
    simp [reached, Stage.cuts, StageKind.endsCycle]

/-- The dispatch makes the calls of its stages. -/
lemma seen_dispatchStages (d : Service) (response : Response) :
    callObserver.seen (d.dispatchEvents response) = callsOf (dispatchStages d response) := by
  rw [seen_dispatchEvents, dispatchStages]
  cases d.wantedTimeout response <;> cases response.stackVersions <;> simp [callObserver, callsOf]

/-- A reaction fails if it shall open a tunnel and cannot. -/
lemma reacts_eq (s : Service) (response : Response) :
    s.reacts response = (!s.opensFor response ||
      ((s.accepted response).isSome && !s.world.control.transport.refusesOpen)) := by
  unfold reacts reaction
  cases hopens : s.opensFor response with
  | false =>
    rw [opensFor] at hopens
    simp [hopens]
  | true =>
    rw [opensFor] at hopens
    rw [if_pos hopens, TunnelControl.openFor_eq, accepted]
    rcases decodeCredentials s.decrypt s.identity.edgeId response.credentials with
      error | credentials
    · rfl
    rcases remotePort response.port with error | port
    · rfl
    cases s.world.control.transport.refusesOpen <;> rfl

/-- The reaction cuts the cycle if it fails; closing never does. -/
lemma any_cuts_tunnelStages (a d : Service) (response : Response) :
    (tunnelStages a d response).any Stage.cuts =
      (!a.closesFor response && !a.reacts response) := by
  rw [reacts_eq]
  unfold tunnelStages
  cases a.closesFor response with
  | true => simp [Stage.cuts, StageKind.endsCycle]
  | false =>
    cases a.opensFor response with
    | false => simp
    | true =>
      unfold accepted
      rcases decodeCredentials a.decrypt a.identity.edgeId response.credentials with
        error | credentials
      · simp [Stage.cuts, StageKind.endsCycle, Except.isOk, Except.toBool]
      rcases remotePort response.port with error | port
      · simp [Stage.cuts, StageKind.endsCycle, Except.isOk, Except.toBool]
      · simp [Stage.cuts, StageKind.endsCycle, Except.isOk, Except.toBool]

/-- The reaction makes the calls of its stages that are reached. -/
lemma seen_tunnelStages (a d : Service) (response : Response) :
    callsOf (reached (tunnelStages a d response)) =
      if a.closesFor response then [.closeTunnel]
      else callObserver.seen (a.reaction response).2.2 := by
  rw [seen_reaction]
  unfold tunnelStages
  cases a.closesFor response with
  | true => simp [reached, callsOf]
  | false =>
    cases a.opensFor response with
    | false => simp [reached, callsOf]
    | true =>
      unfold accepted
      rcases decodeCredentials a.decrypt a.identity.edgeId response.credentials with
        error | credentials
      · simp [reached, callsOf, Stage.cuts, StageKind.endsCycle, Except.isOk, Except.toBool]
      rcases remotePort response.port with error | port
      · simp [reached, callsOf, Stage.cuts, StageKind.endsCycle, Except.isOk, Except.toBool]
      · simp [reached, callsOf, Stage.cuts, StageKind.endsCycle, Except.isOk, Except.toBool,
          callObserver]

/-- The reaction makes one call at most. -/
lemma places_tunnelStages (a d : Service) (response : Response) :
    (callsOf (tunnelStages a d response)).map Event.place = [] ∨
      (callsOf (tunnelStages a d response)).map Event.place = [1] := by
  unfold tunnelStages
  cases a.closesFor response with
  | true => exact .inr rfl
  | false =>
    cases a.opensFor response with
    | false => exact .inl rfl
    | true =>
      cases a.accepted response with
      | none => exact .inl rfl
      | some parameters => exact .inr rfl

/-- The calls of the dispatch stand in their order, after those of the reaction. -/
lemma places_dispatchStages (d : Service) (response : Response) :
    ((callsOf (dispatchStages d response)).map Event.place).Pairwise (· < ·) ∧
      ∀ place ∈ (callsOf (dispatchStages d response)).map Event.place, 2 ≤ place := by
  unfold dispatchStages
  cases d.wantedTimeout response <;> cases response.stackVersions <;> simp [callsOf, Event.place]

/-- The calls of a plan stand in their order. -/
lemma ordered_plan (s₀ a d : Service) :
    ((callsOf (plan s₀ a d)).map Event.place).Pairwise (· < ·) := by
  unfold plan
  rcases s₀.source.next.1 with code | response
  · simp [callsOf]
  obtain ⟨hordered, hle⟩ := places_dispatchStages d response
  have hone : ∀ place ∈ (callsOf (dispatchStages d response)).map Event.place, 1 < place := hle
  have hzero : ∀ place ∈ (callsOf (dispatchStages d response)).map Event.place, 0 < place :=
    fun place hplace => Nat.lt_trans Nat.zero_lt_one (hone place hplace)
  rw [callsOf_cons, callsOf_append, List.map_append, List.map_append]
  rcases places_tunnelStages a d response with hnone | hcall
  · rw [hnone]
    exact List.pairwise_cons.mpr ⟨hzero, hordered⟩
  · rw [hcall]
    refine List.pairwise_cons.mpr ⟨?_, List.pairwise_cons.mpr ⟨hone, hordered⟩⟩
    exact List.forall_mem_cons.mpr ⟨Nat.zero_lt_one, hzero⟩

/-- The calls that are made stand in their order, wherever the cycle is cut. -/
lemma ordered_reached_plan (s₀ a d : Service) :
    ((callsOf (reached (plan s₀ a d))).map Event.place).Pairwise (· < ·) :=
  (ordered_plan s₀ a d).sublist
    (((reached_sublist _).filterMap Stage.call).map Event.place)

/-! ## The calls of a cycle -/

/-- The fetch is the first stage, and the last one if the answer is a refusal. -/
lemma callsOf_reached_plan (s₀ a d : Service) :
    callsOf (reached (plan s₀ a d)) = .fetch s₀.cadence.timeout ::
      match s₀.source.next.1 with
      | .error _ => []
      | .ok response => callsOf (reached (tunnelStages a d response)) ++
        if !a.closesFor response && !a.reacts response then []
        else callsOf (dispatchStages d response) := by
  unfold plan
  rcases s₀.source.next.1 with code | response
  · simp [reached]
  · dsimp only
    rw [reached_cons_of_not_cuts rfl, reached_append, any_cuts_tunnelStages,
      reached_dispatchStages, callsOf_cons, callsOf_append, apply_ite callsOf]
    rfl

/-- Of the calls of a cycle only those of the reaction come between the fetch and the dispatch. -/
lemma place_of_mem_tunnelStages {event : Event}
    (hmem : event ∈ callsOf (reached (tunnelStages a d response))) : event.place = 1 := by
  have hsublist := ((reached_sublist (tunnelStages a d response)).filterMap Stage.call).map
    Event.place
  have hplace := hsublist.subset (List.mem_map_of_mem hmem)
  rcases places_tunnelStages a d response with hnone | hcall
  · rw [callsOf] at hnone
    rw [hnone] at hplace
    cases hplace
  · rw [callsOf] at hcall
    rw [hcall] at hplace
    exact List.mem_singleton.mp hplace

/-- Schedules are handed over exactly if the answer is dispatched. -/
lemma apply_mem_iff {schedules : List Schedule} :
    .apply schedules ∈ callsOf (reached (plan s₀ a d)) ↔
      ∃ response, s₀.source.next.1 = .ok response ∧ schedules = response.schedules ∧
        (a.closesFor response = true ∨ a.reacts response = true) := by
  rw [callsOf_reached_plan]
  rcases s₀.source.next.1 with code | response
  · simp
  have htunnel : .apply schedules ∉ callsOf (reached (tunnelStages a d response)) := by
    intro hmem
    cases place_of_mem_tunnelStages hmem
  have hdispatch : .apply schedules ∈ callsOf (dispatchStages d response) ↔
      schedules = response.schedules := by
    unfold dispatchStages
    cases d.wantedTimeout response <;> cases response.stackVersions <;> simp [callsOf]
  cases hcloses : a.closesFor response <;> cases hreacts : a.reacts response <;>
    simp [htunnel, hdispatch, hcloses, hreacts]

/-- A dispatch asks for logs, also for none. -/
lemma collect_mem (hanswer : s₀.source.next.1 = .ok response)
    (hdispatched : a.closesFor response = true ∨ a.reacts response = true) :
    .collect response.logRequests ∈ callsOf (reached (plan s₀ a d)) := by
  have hmem : .collect response.logRequests ∈ callsOf (dispatchStages d response) := by
    simp [dispatchStages]
  rw [callsOf_reached_plan, hanswer]
  rcases hdispatched with hcloses | hreacts
  · simp [hcloses, hmem]
  · simp [hreacts, hmem]

/-- A reaction that fails leaves the tunnel and the way of reports alone. -/
lemma control_of_not_reacts (hreacts : a.reacts response = false) :
    (a.answerOutcome (.ok response)).control = a.world.control := by
  rw [reacts_eq, Bool.or_eq_false_iff, Bool.not_eq_false'] at hreacts
  rw [control_answerOutcome, control_reaction, hreacts.1, Bool.true_and, hreacts.2]
  exact if_neg Bool.false_ne_true

/-- A reaction that fails has reported no activity. -/
lemma isActivityRecord_of_not_reacts (hcloses : a.closesFor response = false)
    (hreacts : a.reacts response = false) :
    ∀ event ∈ (a.answerOutcome (.ok response)).events, event.isActivityRecord = false := by
  have hreaction : ∀ error control events, a.reaction response = (.error error, control, events) →
      ∀ event ∈ events, event.isActivityRecord = false := by
    intro error control events hreaction
    rw [reaction] at hreaction
    split at hreaction
    · rw [TunnelControl.openFor_eq] at hreaction
      split at hreaction
      · cases hreaction
        simp [Event.isActivityRecord]
      · split at hreaction
        · cases hreaction
          simp [Event.isActivityRecord]
        · split at hreaction
          · cases hreaction
            simp [Event.isActivityRecord]
          · cases hreaction
    · cases hreaction
  unfold reacts at hreacts
  rcases hresult : a.reaction response with ⟨error | action, control, events⟩
  · have hrecords := hreaction error control events hresult
    simp only [answerOutcome, reactOutcome, hcloses, hresult]
    simpa [Event.isActivityRecord, or_imp, forall_and] using hrecords
  · rw [hresult] at hreacts
    cases hreacts

end Service

end CheckIn
