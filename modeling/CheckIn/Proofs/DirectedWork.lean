/-
# What the controller directs is done once

An answer directs the agent to hand its schedules over, to ask for logs, and to hand its stack
targets over.  Over a whole run the calls with which this is done are those of the answers whose
reaction succeeded (`served`), in their order, one of each kind for each answer, and nothing is
left out, repeated or changed (`Run.directed_work`).  Which subsystems fail plays no part.

The answers are told from the requests alone: each request brings the answer that the source had
ready at its tick (`requests`).  That the poll loop keeps this answer until it dispatches it is an
invariant of the run (`Tracked`).
-/
import CheckIn.Proofs.CycleLaw
import Mathlib.Data.List.Forall2

namespace CheckIn

/-! ## The map of versions -/

/-- The version in the last target of a list for a stack. -/
def lastVersion (targets : List StackTarget) (id : Int64) : Option Int64 :=
  (targets.reverse.find? fun target => target.id = id).map (·.version)

lemma lastVersion_cons (target : StackTarget) (targets : List StackTarget) (id : Int64) :
    lastVersion (target :: targets) id =
      (lastVersion targets id).or (if target.id = id then some target.version else none) := by
  rw [lastVersion, lastVersion, List.reverse_cons, List.find?_append]
  cases targets.reverse.find? fun other => other.id = id with
  | some other => rfl
  | none => by_cases h : target.id = id <;> simp [h]

lemma lastVersion_isSome {targets : List StackTarget} {id : Int64} :
    (lastVersion targets id).isSome = true ↔ id ∈ targets.map (·.id) := by
  simp [lastVersion]

namespace StackVersions

lemma get?_foldl_insert (targets : List StackTarget) (versions : StackVersions) (id : Int64) :
    (targets.foldl (fun versions target => versions.insert target.id target.version) versions).get?
      id = (lastVersion targets id).or (versions.get? id) := by
  induction targets generalizing versions with
  | nil => rfl
  | cons target targets ih =>
    rw [List.foldl_cons, ih, lastVersion_cons, get?_insert, Option.or_assoc]
    congr 1
    by_cases h : target.id = id
    · simp [h]
    · rw [if_neg h, if_neg (Ne.symm h)]
      rfl

/-- Of several targets for one stack the last one counts. -/
lemma get?_ofTargets (targets : List StackTarget) (id : Int64) :
    (ofTargets targets).get? id = lastVersion targets id := by
  rw [ofTargets, get?_foldl_insert]
  exact Option.or_none

/-- No stack has two entries, so that its entry is the one that is found. -/
lemma mem_entries_iff (versions : StackVersions) {id version : Int64} :
    (id, version) ∈ versions.entries ↔ versions.get? id = some version := by
  have hunique : ∀ entries : List (Int64 × Int64), (entries.map Prod.fst).Nodup →
      ((id, version) ∈ entries ↔
        (entries.find? fun entry => entry.1 = id).map Prod.snd = some version) := by
    intro entries hnodup
    induction entries with
    | nil => simp
    | cons entry rest ih =>
      rw [List.map_cons, List.nodup_cons] at hnodup
      have hrest := ih hnodup.2
      by_cases hid : entry.1 = id
      · have hnotMem : (id, version) ∉ rest := by
          intro hmem
          exact hnodup.1 (hid ▸ List.mem_map_of_mem hmem)
        obtain ⟨key, value⟩ := entry
        obtain rfl : key = id := hid
        simp [hnotMem, eq_comm]
      · have hne : (id, version) ≠ entry := by
          rintro rfl
          exact hid rfl
        rw [List.mem_cons, or_iff_right hne, List.find?_cons_of_neg (by simp [hid])]
        exact hrest
  exact hunique versions.entries versions.nodup

lemma mem_keys_iff (versions : StackVersions) {id : Int64} :
    id ∈ versions.entries.map Prod.fst ↔ (versions.get? id).isSome = true := by
  simp [get?]

end StackVersions

/-- Whether a map of versions is what a list of targets asks for. -/
structure LastWins (targets : List StackTarget) (versions : StackVersions) : Prop where
  keys : ∀ id, id ∈ versions.entries.map Prod.fst ↔ id ∈ targets.map (·.id)
  values : ∀ id version, (id, version) ∈ versions.entries → lastVersion targets id = some version

lemma lastWins_ofTargets (targets : List StackTarget) :
    LastWins targets (StackVersions.ofTargets targets) := by
  constructor
  · intro id
    rw [StackVersions.mem_keys_iff, StackVersions.get?_ofTargets, lastVersion_isSome]
  · intro id version hmem
    rwa [StackVersions.mem_entries_iff, StackVersions.get?_ofTargets] at hmem

/-! ## Observers of the subsystems -/

/-- The observer of the schedules that are handed over. -/
def scheduleObserver : Observer (List Schedule) where
  see
    | .apply schedules => some schedules
    | _ => none
  see_log _ := rfl

/-- The observer of the jobs whose logs are asked for. -/
def logObserver : Observer (List Int64) where
  see
    | .collect ids => some ids
    | _ => none
  see_log _ := rfl

/-- The observer of the stack targets that are handed over. -/
def stackObserver : Observer StackVersions where
  see
    | .reconcile versions => some versions
    | _ => none
  see_log _ := rfl

namespace Service

variable {s₀ s s' : Service} {act : Act} {ms past : List Move} {m : Move} {response : Response}

/-! ## Requests and answers -/

/-- A request. -/
structure Request where
  answer : Except PollError Response
  /-- Whether the reaction to the answer has come to its end and did not fail. -/
  reacted : Bool := false

/-- Whether a move brings a reaction to its end that does not fail.  The end of closing does, also
if the transport refuses. -/
def Move.completesReaction (m : Move) : Bool :=
  match m.act, m.before.phase with
  | .answered, .fetching _ (.ok response) =>
    !m.before.closesFor response && !(tunnelStages m.before m.before response).any Stage.cuts
  | .closed, .closing _ _ => true
  | _, _ => false

/-- The requests of a history, the last one first.  Each has the answer that the source had ready
when it was made. -/
def requests : List Move → List Request
  | [] => []
  | m :: past =>
    if m.isTick then ⟨m.before.source.next.1, false⟩ :: requests past
    else
      match m.completesReaction, requests past with
      | true, request :: earlier => { request with reacted := true } :: earlier
      | _, requests => requests

/-- The answer to a request, if it is one that was not refused and whose reaction succeeded. -/
def Request.served (request : Request) : Option Response :=
  match request.reacted, request.answer with
  | true, .ok response => some response
  | _, _ => none

/-- The answers that were not refused and whose reaction succeeded, in order. -/
def served (ms : List Move) : List Response := ((requests ms).filterMap Request.served).reverse

/-- Only what dispatches an answer completes a reaction. -/
lemma completesReaction_eq (m : Move) : m.completesReaction = m.dispatched.isSome := by
  obtain ⟨s, act⟩ := m
  cases act with
  | answered =>
    cases hp : s.phase with
    | fetching done answer =>
      cases answer with
      | error code => simp [Move.completesReaction, Move.dispatched, hp]
      | ok response =>
        simp only [Move.completesReaction, Move.dispatched, hp, any_cuts_tunnelStages]
        cases s.closesFor response <;> cases s.reacts response <;> rfl
    | _ => simp [Move.completesReaction, Move.dispatched, hp]
  | closed => cases hp : s.phase <;> simp [Move.completesReaction, Move.dispatched, hp]
  | _ => rfl

lemma requests_of_tick (htick : m.isTick = true) :
    requests (m :: past) = ⟨m.before.source.next.1, false⟩ :: requests past := by
  rw [requests, if_pos htick]

lemma requests_of_dispatched {request : Request} {earlier : List Request}
    (hd : m.dispatched = some response) (hrequests : requests past = request :: earlier) :
    requests (m :: past) = { request with reacted := true } :: earlier := by
  have htick : ¬ m.isTick = true := by simp [(Move.of_dispatched hd).1]
  have hcompletes : m.completesReaction = true := by rw [completesReaction_eq, hd]; rfl
  rw [requests, if_neg htick, hcompletes, hrequests]

lemma requests_of_neither (htick : m.isTick = false) (hd : m.dispatched = none) :
    requests (m :: past) = requests past := by
  have hcompletes : m.completesReaction = false := by rw [completesReaction_eq, hd]; rfl
  rw [requests, if_neg (by simp [htick]), hcompletes]

/-! ## The answer that is awaited -/

/-- The answer for which the poll loop is busy. -/
def awaited (s : Service) : Option (Except PollError Response) :=
  match s.phase with
  | .fetching _ answer => some answer
  | .closing _ response => some (.ok response)
  | .waiting | .ended => none

lemma awaited_eq_none (h : s.busyUntil = none) : s.awaited = none := by
  cases hp : s.phase with
  | waiting | ended => rw [awaited, hp]
  | fetching | closing =>
    rw [busyUntil, hp] at h
    cases h

/-- What is dispatched is the answer that was awaited. -/
lemma awaited_of_dispatched (hd : m.dispatched = some response) :
    m.before.awaited = some (.ok response) ∧ m.after.awaited = none := by
  refine ⟨?_, awaited_eq_none (Move.of_dispatched hd).2.2⟩
  obtain ⟨s, act⟩ := m
  cases act with
  | answered =>
    cases hp : s.phase with
    | fetching done answer =>
      cases answer with
      | error code => simp [Move.dispatched, hp] at hd
      | ok answer =>
        simp only [Move.dispatched, hp, Option.ite_none_left_eq_some, Option.some.injEq] at hd
        simp [awaited, hp, hd.2]
    | _ => simp [Move.dispatched, hp] at hd
  | closed =>
    cases hp : s.phase with
    | closing done answer =>
      simp only [Move.dispatched, hp, Option.some.injEq] at hd
      simp [awaited, hp, hd]
    | _ => simp [Move.dispatched, hp] at hd
  | _ => simp [Move.dispatched] at hd

/-- Between the tick and the dispatch the answer that is awaited stays the same. -/
lemma awaited_of_awaited_after {answer : Except PollError Response} (htick : m.isTick = false)
    (hawaited : m.after.awaited = some answer) : m.before.awaited = some answer := by
  obtain ⟨s, act⟩ := m
  have hphase : (Move.mk s act).after.phase = s.phaseAfter act := rfl
  rw [awaited, hphase] at hawaited
  cases act with
  | tick => cases htick
  | answered =>
    cases hp : s.phase with
    | fetching done arrived =>
      cases arrived with
      | error code => simp [phaseAfter, hp, answerOutcome] at hawaited
      | ok response =>
        simp only [phaseAfter, hp, phase_answerOutcome] at hawaited
        cases hcloses : s.closesFor response with
        | true =>
          rw [hcloses] at hawaited
          rw [awaited, hp]
          exact hawaited
        | false =>
          rw [hcloses] at hawaited
          cases hawaited
    | closing done response =>
      rw [awaited, hp]
      simpa [phaseAfter, hp] using hawaited
    | waiting | ended => simp [phaseAfter, hp] at hawaited
  | closed => cases hawaited
  | endPolling => cases hawaited
  | _ => exact hawaited

/-- What the history tells of the answers: which have been served, and which is awaited. -/
structure Tracked (ms : List Move) (s : Service) : Prop where
  served : (requests ms).filterMap Request.served = ms.filterMap Move.dispatched
  awaited : ∀ answer, s.awaited = some answer →
    ∃ earlier, requests ms = ⟨answer, false⟩ :: earlier

lemma Tracked.after (hk : Tracked ms m.before) : Tracked (m :: ms) m.after := by
  cases htick : m.isTick with
  | true =>
    have hd := Move.dispatched_eq_none htick
    have hrequests : requests (m :: ms) = ⟨m.before.source.next.1, false⟩ :: requests ms :=
      requests_of_tick htick
    constructor
    · rw [hrequests, List.filterMap_cons_none rfl, List.filterMap_cons_none hd]
      exact hk.served
    · intro answer hawaited
      obtain ⟨s, act⟩ := m
      obtain rfl : act = .tick := Move.act_eq_tick htick
      obtain rfl := Option.some.inj hawaited
      exact ⟨requests ms, hrequests⟩
  | false =>
    cases hd : m.dispatched with
    | none =>
      have hrequests : requests (m :: ms) = requests ms := requests_of_neither htick hd
      constructor
      · rw [hrequests, List.filterMap_cons_none hd]
        exact hk.served
      · intro answer hawaited
        rw [hrequests]
        exact hk.awaited answer (awaited_of_awaited_after htick hawaited)
    | some response =>
      obtain ⟨hbefore, hafter⟩ := awaited_of_dispatched hd
      obtain ⟨earlier, hmade⟩ := hk.awaited _ hbefore
      have hrequests := requests_of_dispatched hd hmade
      constructor
      · -- the request that was open is the one that is served
        have hserved := hk.served
        rw [hmade, List.filterMap_cons_none rfl] at hserved
        rw [hrequests, List.filterMap_cons_some hd, ← hserved]
        rfl
      · intro answer hawaited
        rw [hafter] at hawaited
        cases hawaited

/-- In every run the answers that are served are those that are dispatched. -/
theorem Run.tracked (hr : Run s₀ ms s) (h₀ : s₀.busyUntil = none) : Tracked ms s := by
  induction hr with
  | nil =>
    constructor
    · rfl
    · intro answer hawaited
      rw [awaited_eq_none h₀] at hawaited
      cases hawaited
  | @cons ms s s' act hr h ih =>
    rw [h.eq_afterMove]
    exact Tracked.after (m := ⟨s, act⟩) ih

/-! ## The calls of a run -/

/-- An observer who looks at one part of the dispatch sees it once for each answer. -/
lemma Run.observed_eq {α : Type} (observer : Observer α) (part : Response → Option α)
    (hfetch : ∀ timeout, observer.see (.fetch timeout) = none)
    (hopen : ∀ parameters, observer.see (.openTunnel parameters) = none)
    (hclose : observer.see .closeTunnel = none)
    (hpart : ∀ s response, observer.seen (dispatchEvents s response) = (part response).toList)
    (hr : Run s₀ ms s) (h₀ : s₀.busyUntil = none) :
    observed observer ms = (served ms).filterMap part := by
  rw [served, (hr.tracked h₀).served]
  clear hr
  induction ms with
  | nil => rfl
  | cons m past ih =>
    rw [observed_cons, ih, seen_events_of_dispatched observer hfetch hopen hclose]
    cases hd : m.dispatched with
    | none => simp [hd]
    | some response => cases hcall : part response <;> simp [hd, hpart, hcall]

/-- In every run, whatever fails: the answers that were not refused and whose reaction succeeded
are those whose schedules are handed over, once each, in order and unchanged; for each of them
logs are asked for once, of the jobs that want it and in their order; and of those that speak of
stacks, and of no others, the map of the last versions is handed over. -/
theorem Run.directed_work (hr : Run s₀ ms s) (h₀ : s₀.busyUntil = none) :
    observed scheduleObserver ms = (served ms).map Response.schedules ∧
      observed logObserver ms = (served ms).map (fun response =>
        (response.schedules.filter Schedule.collectLogs).map Schedule.id) ∧
      List.Forall₂ LastWins ((served ms).filterMap Response.stackTargets)
        (observed stackObserver ms) := by
  refine ⟨?_, ?_, ?_⟩
  · rw [← List.filterMap_eq_map]
    refine hr.observed_eq scheduleObserver _ (fun _ => rfl) (fun _ => rfl) rfl ?_ h₀
    intro s response
    rw [seen_dispatchEvents]
    cases s.wantedTimeout response <;> cases response.stackVersions <;> rfl
  · rw [← List.filterMap_eq_map]
    refine hr.observed_eq logObserver _ (fun _ => rfl) (fun _ => rfl) rfl ?_ h₀
    intro s response
    rw [seen_dispatchEvents]
    cases s.wantedTimeout response <;> cases response.stackVersions <;> rfl
  · have hobserved : observed stackObserver ms = (served ms).filterMap Response.stackVersions := by
      refine hr.observed_eq stackObserver _ (fun _ => rfl) (fun _ => rfl) rfl ?_ h₀
      intro s response
      rw [seen_dispatchEvents]
      cases s.wantedTimeout response <;> cases response.stackVersions <;> rfl
    have hmaps : (served ms).filterMap Response.stackVersions =
        ((served ms).filterMap Response.stackTargets).map StackVersions.ofTargets := by
      rw [List.map_filterMap]
      rfl
    rw [hobserved, hmaps, List.forall₂_map_right_iff, List.forall₂_same]
    exact fun targets _ => lastWins_ofTargets targets

/-- The first answer is refused; the second one lists a job and a stack twice; the third one asks
for a tunnel at a port that does not exist; the fourth one for none, and does not speak of stacks;
and all later ones list no stacks. -/
def directing : Setup where
  hasTunnel := true
  collaborators := { schedulerFails := true, reconcilerFails := true }
  source :=
    { answers := [.error (.status 500),
        .ok { schedules := [⟨3, true, []⟩, ⟨1, false, []⟩, ⟨3, true, []⟩]
              stackTargets := some [⟨1, 1⟩, ⟨2, 5⟩, ⟨1, 9⟩] },
        .ok { status := .required, port := 70000, schedules := [⟨4, true, []⟩] },
        .ok { status := .idle, schedules := [⟨5, false, []⟩] }]
      fallback := { stackTargets := some [] } }
  clockEnd := 1000000 * nanosPerSecond

/-- The tunnel is opened from outside before the fourth request. -/
def fiveRequests : List Act :=
  [.start, .takeStart, .wait 5000, .tick, .answered, .wait 10000, .tick, .answered, .wait 15000,
    .tick, .answered, .outside (.tunnel true), .wait 20000, .tick, .answered, .wait 20500, .closed,
    .wait 25000, .tick, .answered]

/-- Of five answers three are served, the fourth one after its tunnel has been closed. -/
theorem served_thrice : ∃ s₀ ms s, spawnWithSource {} directing { closeDelay := 500 } = .ok s₀ ∧
    Run s₀ ms s ∧ s₀.busyUntil = none ∧ (requests ms).length = 5 ∧
      (served ms).map (·.schedules.map Schedule.id) = [[3, 1, 3], [5], []] ∧
      observed logObserver ms = [[3, 3], [], []] ∧
      (observed stackObserver ms).map StackVersions.entries = [[(1, 9), (2, 5)], []] ∧
      observed scheduleObserver ms = (served ms).map Response.schedules ∧
      List.Forall₂ LastWins ((served ms).filterMap Response.stackTargets)
        (observed stackObserver ms) := by
  obtain ⟨s₀, ms, s, hs, hr, h⟩ := exists_run {} directing { closeDelay := 500 } fiveRequests
    (fun s₀ ms _ => decide (s₀.busyUntil = none) && decide ((requests ms).length = 5) &&
      decide ((served ms).map (·.schedules.map Schedule.id) = [[3, 1, 3], [5], []]) &&
      decide (observed logObserver ms = [[3, 3], [], []]) &&
      decide ((observed stackObserver ms).map StackVersions.entries = [[(1, 9), (2, 5)], []]))
    (by decide +kernel)
  simp only [Bool.and_eq_true, decide_eq_true_eq] at h
  obtain ⟨⟨⟨⟨h₀, hrequests⟩, hserved⟩, hlogs⟩, hstacks⟩ := h
  obtain ⟨hschedules, -, hmaps⟩ := Run.directed_work hr h₀
  exact ⟨s₀, ms, s, hs, hr, h₀, hrequests, hserved, hlogs, hstacks, hschedules, hmaps⟩

end Service

end CheckIn
