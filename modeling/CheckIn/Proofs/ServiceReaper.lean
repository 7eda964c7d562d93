/-
# The reaper of a service

The reaper of a service shares its world with the poll loop.  To the reaper, all that the poll loop
does is to change the transport, and to report a use of it when a tunnel has been opened.  So every
run of a service is a run of a reaper on its own, but for the journal, and both tell the same of the
use of the tunnel and of the checks (`Run.exists_mirrored`).  What is known of every reaper on its
own is thereby known of the reaper of a service.

A use of the tunnel counts from when it is made.  But while the reaper closes the tunnel it takes no
reports, so a use that is made meanwhile counts from the end of that (`lastUse`).
-/
import CheckIn.Proofs.ReaperHistory
import CheckIn.Proofs.TunnelSafety

namespace CheckIn

namespace Service

/-! ## Uses and checks -/

/-- Whether a move uses the tunnel: it is opened, or activity of the open tunnel is reported. -/
def Move.uses (m : Move) : Bool :=
  match m.act with
  | .answered => m.turn == some true
  | .reportActivity => m.before.world.hasTunnel && m.before.tunnelIsOpen
  | _ => false

/-- Whether a move is a check of the reaper. -/
def Move.isCheck (m : Move) : Bool :=
  match m.act with
  | .check => true
  | _ => false

/-- Whether a move is the end of a close by the reaper. -/
def Move.endsReaperClose (m : Move) : Bool :=
  match m.act with
  | .reaperClosed => true
  | _ => false

/-- Whether the tunnel was used since the last check. -/
def usedSinceCheck (ms : List Move) : Bool := (ms.takeWhile (!·.isCheck)).any Move.uses

/-- The instant, in milliseconds, from which the last use of the tunnel counts.  A use counts from
when it was made, but one that was made while the reaper closed the tunnel counts from the end of
that. -/
def lastUse : List Move → Option Nat
  | [] => none
  | m :: past =>
    if m.uses || (m.endsReaperClose && usedSinceCheck past) then some m.instant else lastUse past

/-- The number of checks. -/
def checks (ms : List Move) : Nat := ms.countP Move.isCheck

variable {s₀ s s' : Service} {act : Act} {ms past : List Move} {m m' : Move}
  {journal : List (Nat × Event)} {r : Reaper.Move} {rs : List Reaper.Move} {c₀ : Reaper.Scene}

lemma Move.isCheck_iff (m : Move) : m.isCheck = true ↔ m.act = .check := by
  cases h : m.act <;> simp [isCheck, h]

lemma checks_cons (m : Move) (ms : List Move) :
    checks (m :: ms) = checks ms + m.isCheck.toNat := by
  cases h : m.isCheck <;> simp [checks, h]

lemma usedSinceCheck_cons (h : m.isCheck = false) :
    usedSinceCheck (m :: ms) = (m.uses || usedSinceCheck ms) := by
  simp [usedSinceCheck, h]

/-- A tunnel that is opened is used. -/
lemma uses_of_turn (h : m.turn = some true) : m.uses = true := by
  obtain ⟨parameters, hopens⟩ := exists_opensFor_of_turn h
  obtain ⟨_, _, hact, -⟩ := hopens.isWanted
  simp [Move.uses, hact, h]

/-- The last use is not before any other. -/
lemma Run.le_lastUse (hr : Run s₀ ms s) (hm : m ∈ ms) (huse : m.uses = true) :
    ∃ use, lastUse ms = some use ∧ m.instant ≤ use := by
  induction hr with
  | nil => simp at hm
  | @cons ms s s' act hr h ih =>
    rw [lastUse]
    split
    · refine ⟨_, rfl, ?_⟩
      rcases List.mem_cons.mp hm with rfl | hm
      · exact Nat.le_refl _
      · exact (hr.instant_bounds hm).2
    · next hlast =>
      rcases List.mem_cons.mp hm with rfl | hm
      · simp [huse] at hlast
      · exact ih hm

/-- A tunnel that is there, though there was none at first, was opened by a cycle. -/
theorem Run.exists_turn_of_tunnelIsOpen (hr : Run s₀ ms s) (hu : Undisturbed ms)
    (h₀ : s₀.tunnelIsOpen = false) (ho : s.tunnelIsOpen = true) :
    s.world.hasTunnel = true ∧ ∃ m ∈ ms, m.turn = some true := by
  induction hr with
  | nil =>
    rw [h₀] at ho
    cases ho
  | @cons ms s s' act hr h ih =>
    have hafter := h.tunnelIsOpen_eq (hu _ List.mem_cons_self)
    have htunnel : s'.world.hasTunnel = s.world.hasTunnel := by
      rw [h.eq_after]
      rfl
    rw [htunnel]
    rw [hafter] at ho
    cases hturn : (Move.mk s act).turn with
    | none =>
      rw [hturn] at ho
      obtain ⟨hhas, m, hm, hopened⟩ := ih hu.of_cons ho
      exact ⟨hhas, m, List.mem_cons_of_mem _ hm, hopened⟩
    | some opened =>
      rw [hturn] at ho
      obtain rfl : opened = true := ho
      obtain ⟨parameters, hopens⟩ := exists_opensFor_of_turn hturn
      exact ⟨hopens.hasTunnel, _, List.mem_cons_self, hturn⟩

lemma closeTunnel_mem_check_iff (s : Service) :
    .closeTunnel ∈ (Move.mk s .check).events ↔ s.reaper.closesNow s.world = true := by
  rw [← closing_mem_tunnelCalls, Move.events, tunnelCalls_eventsOf]
  cases s.reaper.closesNow s.world <;> simp

/-! ## What the reaper sees -/

/-- The reaper of a service in its world, with some journal. -/
def scene (s : Service) (journal : List (Nat × Event)) : Reaper.Scene :=
  ⟨s.reaper, { s.world with journal }⟩

/-- A reaper that is like that of a service but for the journal. -/
lemma exists_eq_scene {c : Reaper.Scene}
    (h : ({ c with world := { c.world with journal := [] } } : Reaper.Scene) = s.scene []) :
    ∃ journal, c = s.scene journal := by
  refine ⟨c.world.journal, ?_⟩
  exact congrArg (fun c' : Reaper.Scene =>
    { c' with world := { c'.world with journal := c.world.journal } }) h

/-- What a move is to the reaper.  Whatever else the poll loop or somebody outside does, all that it
can change for the reaper is the transport. -/
def Move.toReaper (m : Move) : Reaper.Act :=
  match m.act with
  | .reportActivity => .report
  | .cancel => .cancel
  | .takeReport => .takeReport
  | .check => .check
  | .reaperClosed => .closed
  | .leave => .leave
  | .wait instant => .wait instant
  | .outside (.closeDelay millis) => .closeDelay millis
  | _ => .transport m.after.world.control.transport

/-- Handles for reports are never dropped. -/
lemma held_controlAfter (s : Service) (act : Act) :
    (s.controlAfter act).activity.held = s.world.control.activity.held := by
  cases act with
  | answered =>
    rcases answered_cases s with ⟨-, parameters, hcontrol⟩ | ⟨-, hcontrol⟩
    · rw [hcontrol, TunnelControl.afterOpening, ActivitySlot.held_report]
    · rw [hcontrol]
  | reportActivity =>
    simp only [controlAfter]
    split
    · exact ActivitySlot.held_report _ _
    · rfl
  | outside change => cases change <;> rfl
  | _ => rfl

/-- What can happen to a service can happen to its reaper. -/
lemma can_toReaper (hcan : s.can act = true)
    (hheld : s.world.control.activity.held = true) :
    (s.scene journal).can (Move.mk s act).toReaper = true := by
  cases act with
  | reportActivity => exact hheld
  | outside change => cases change <;> rfl
  | takeReport | check | reaperClosed | leave | wait => exact hcan
  | _ => rfl

/-- A move that opens no tunnel leaves behind for the reaper what it leaves behind. -/
lemma exists_scene_after (journal : List (Nat × Event)) (hcan : s.can act = true)
    (hturn : (Move.mk s act).turn ≠ some true) :
    ∃ journal', (s.scene journal).after (Move.mk s act).toReaper =
      (s.after act).scene journal' := by
  refine exists_eq_scene ?_
  cases act with
  | reportActivity =>
    cases htunnel : s.world.hasTunnel <;>
      simp only [scene, Move.toReaper, Reaper.Scene.after, World.reportActivity, after, worldAfter,
        controlAfter, htunnel] <;> rfl
  | check =>
    obtain ⟨ticker, hw, -⟩ := Reaper.Scene.can_check_iff.mp
      (show (s.scene journal).can .check = true from hcan)
    have hwatching : s.reaper.phase = .watching ticker := hw
    rw [Move.toReaper, Reaper.Scene.after_check hw]
    simp only [scene, after, worldAfter, reaperAfter, hwatching]
    rfl
  | reaperClosed =>
    obtain ⟨ticker, done, hc, -⟩ := Reaper.Scene.can_closed_iff.mp
      (show (s.scene journal).can .closed = true from hcan)
    have hclosing : s.reaper.phase = .closing ticker done := hc
    rw [Move.toReaper, Reaper.Scene.after_closed hc]
    simp only [scene, after, worldAfter, reaperAfter, hclosing]
    rfl
  | answered =>
    have hcontrol : s.controlAfter .answered = s.world.control := by
      rcases answered_cases s with ⟨hopened, -⟩ | ⟨-, hcontrol⟩
      · exact absurd hopened hturn
      · exact hcontrol
    have hafter : (Move.mk s .answered).after.world.control.transport = s.world.control.transport :=
      congrArg TunnelControl.transport hcontrol
    simp only [Move.toReaper, hafter, scene, after, worldAfter, hcontrol]
    rfl
  | outside change => cases change <;> rfl
  | _ => rfl

/-- To the reaper, an opening is a change of the transport after which a use is reported. -/
lemma exists_scene_opening (hturn : (Move.mk s .answered).turn = some true)
    (hheld : s.world.control.activity.held = true) :
    let opened := (s.scene journal).after (Move.mk s .answered).toReaper
    opened.can .report = true ∧ (Reaper.Move.mk opened .report).accepted = true ∧
      ∃ journal', opened.after .report = (s.after .answered).scene journal' := by
  intro opened
  obtain ⟨parameters, hopens⟩ := exists_opensFor_of_turn hturn
  have htunnel : s.world.hasTunnel = true := hopens.hasTunnel
  have hcontrol : ∃ parameters,
      s.controlAfter .answered = s.world.control.afterOpening parameters := by
    rcases answered_cases s with ⟨-, hcontrol⟩ | ⟨hnone, -⟩
    · exact hcontrol
    · rw [hnone] at hturn
      cases hturn
  obtain ⟨parameters, hcontrol⟩ := hcontrol
  have htransport : (Move.mk s .answered).after.world.control.transport =
      (s.world.control.afterOpening parameters).transport :=
    congrArg TunnelControl.transport hcontrol
  have hopened : opened = (s.scene journal).after
      (.transport (s.world.control.afterOpening parameters).transport) :=
    congrArg (fun next => (s.scene journal).after (.transport next)) htransport
  refine ⟨hheld, ?_, exists_eq_scene ?_⟩
  · rw [hopened]
    exact (Bool.and_eq_true _ _).mpr ⟨htunnel, rfl⟩
  · rw [hopened]
    simp only [scene, Reaper.Scene.after, World.changeTransport, World.reportActivity, after,
      worldAfter, hcontrol, htunnel, if_true]
    rfl

/-! ## The run of the reaper -/

/-- A move of a service and a move of a reaper that tell the same of the use of the tunnel, of the
checks and of the closes. -/
structure Move.Mirrors (m : Move) (r : Reaper.Move) : Prop where
  instant : r.instant = m.instant
  isCheck : r.isCheck = m.isCheck
  accepted : r.accepted = m.uses
  endsClose : r.endsClose = m.endsReaperClose
  isPrompt : m.isPrompt = true → r.isPrompt = true
  before : m.isCheck = true → ∃ journal, r.before = m.before.scene journal

/-- The moves of a service, and those that its reaper sees: the same number of them, and one more
for each tunnel that is opened. -/
inductive Mirrored : List Move → List Reaper.Move → Prop
  | nil : Mirrored [] []
  | cons {ms : List Move} {rs : List Reaper.Move} {m : Move} {r : Reaper.Move}
      (h : Mirrored ms rs) (hm : m.Mirrors r) : Mirrored (m :: ms) (r :: rs)
  | opening {ms : List Move} {rs : List Reaper.Move} {m : Move} {r : Reaper.Move}
      {c : Reaper.Scene} {next : Transport} (h : Mirrored ms rs) (hm : m.Mirrors r) :
      Mirrored (m :: ms) (r :: ⟨c, .transport next⟩ :: rs)

/-- Whether a reaper has anything to do does not depend on the journal. -/
lemma moves_scene_eq_nil (h : s.reaper.moves s.world = []) :
    (s.scene journal).reaper.moves (s.scene journal).world = [] := by
  cases hp : s.reaper.phase <;> simp_all [scene, Reaper.moves, Nat.not_le_of_gt]

/-- What a move is to the reaper tells the same, if no tunnel is opened. -/
lemma mirrors_toReaper (hturn : (Move.mk s act).turn ≠ some true) :
    (Move.mk s act).Mirrors ⟨s.scene journal, (Move.mk s act).toReaper⟩ := by
  have hno {p : Prop} (h : false = true) : p := absurd h Bool.false_ne_true
  cases act with
  | answered =>
    have hunused : (Move.mk s .answered).uses = false := beq_eq_false_iff_ne.mpr hturn
    exact ⟨rfl, rfl, hunused.symm, rfl, fun _ => rfl, hno⟩
  | check => exact ⟨rfl, rfl, rfl, rfl, fun _ => rfl, fun _ => ⟨journal, rfl⟩⟩
  | wait instant =>
    refine ⟨rfl, rfl, rfl, rfl, ?_, hno⟩
    intro hprompt
    have hp : Prompt [⟨s, .wait instant⟩] := List.forall_mem_singleton.mpr hprompt
    have hmoves : (s.scene journal).reaper.moves (s.scene journal).world = [] :=
      moves_scene_eq_nil hp.moves_eq_nil
    have hwake : s.reaper.wake.all (decide <| instant ≤ ·) = true := by
      cases hw : s.reaper.wake with
      | none => rfl
      | some wake => exact decide_eq_true (hp.le_wake.2 wake hw)
    simp only [Move.toReaper, Reaper.Move.isPrompt, hmoves, List.isEmpty_nil, Bool.true_and]
    exact hwake
  | outside change => cases change <;> exact ⟨rfl, rfl, rfl, rfl, fun _ => rfl, hno⟩
  | _ => exact ⟨rfl, rfl, rfl, rfl, fun _ => rfl, hno⟩

/-! ## What both runs tell -/

/-- The moves of a reaper tell the same history as those of a service. -/
structure SameHistory (rs : List Reaper.Move) (ms : List Move) : Prop where
  last : Reaper.lastReport none rs = lastUse ms
  since : Reaper.reportedSinceCheck rs = usedSinceCheck ms
  count : Reaper.checks rs = checks ms

/-- One more move that both sides make keeps the history the same. -/
lemma SameHistory.cons (h : SameHistory rs ms) (hm : m.Mirrors r) :
    SameHistory (r :: rs) (m :: ms) where
  last := by
    rw [Reaper.lastReport, lastUse, hm.accepted, hm.endsClose, hm.instant, h.since, h.last]
  since := by
    cases hcheck : m.isCheck with
    | true => simp [Reaper.reportedSinceCheck, usedSinceCheck, hm.isCheck, hcheck]
    | false =>
      rw [Reaper.reportedSinceCheck_cons (hm.isCheck.trans hcheck), usedSinceCheck_cons hcheck,
        hm.accepted, h.since]
  count := by rw [Reaper.checks_cons, checks_cons, hm.isCheck, h.count]

/-- A change of the transport is not part of the history. -/
lemma SameHistory.transport {c : Reaper.Scene} {next : Transport} (h : SameHistory rs ms) :
    SameHistory (⟨c, .transport next⟩ :: rs) ms := ⟨h.last, h.since, h.count⟩

/-- The run of the reaper tells of the same uses and the same checks. -/
lemma Mirrored.sameHistory (h : Mirrored ms rs) : SameHistory rs ms := by
  induction h with
  | nil => exact ⟨rfl, rfl, rfl⟩
  | cons _ hm ih => exact ih.cons hm
  | opening _ hm ih => exact ih.transport.cons hm

/-- A move of the reaper is one of the service, or prepares the report of an opening. -/
lemma Mirrored.exists_of_mem (h : Mirrored ms rs) (hr : r ∈ rs) :
    (∃ m ∈ ms, m.Mirrors r) ∨ ∃ next, r.act = .transport next := by
  induction h with
  | nil => simp at hr
  | cons _ hm ih =>
    rcases List.mem_cons.mp hr with rfl | hr
    · exact .inl ⟨_, List.mem_cons_self, hm⟩
    · exact (ih hr).imp_left fun ⟨m, hmem, hm⟩ => ⟨m, List.mem_cons_of_mem _ hmem, hm⟩
  | opening _ hm ih =>
    rcases List.mem_cons.mp hr with rfl | hr
    · exact .inl ⟨_, List.mem_cons_self, hm⟩
    · rcases List.mem_cons.mp hr with rfl | hr
      · exact .inr ⟨_, rfl⟩
      · exact (ih hr).imp_left fun ⟨m, hmem, hm⟩ => ⟨m, List.mem_cons_of_mem _ hmem, hm⟩

/-- What the reaper takes for a report of use is a use of the tunnel. -/
lemma Mirrored.exists_of_accepted (h : Mirrored ms rs) (hr : r ∈ rs)
    (haccepted : r.accepted = true) : ∃ m ∈ ms, m.uses = true ∧ m.instant = r.instant := by
  rcases h.exists_of_mem hr with ⟨m, hm, hmirrors⟩ | ⟨next, hact⟩
  · exact ⟨m, hm, hmirrors.accepted ▸ haccepted, hmirrors.instant.symm⟩
  · simp [Reaper.Move.accepted, hact] at haccepted

/-- A check of the reaper is one of the service. -/
lemma Mirrored.exists_of_isCheck (h : Mirrored ms rs) (hr : r ∈ rs) (hcheck : r.isCheck = true) :
    ∃ m ∈ ms, m.isCheck = true ∧ m.instant = r.instant ∧
      ∃ journal, r.before = m.before.scene journal := by
  rcases h.exists_of_mem hr with ⟨m, hm, hmirrors⟩ | ⟨next, hact⟩
  · have hcheck' : m.isCheck = true := hmirrors.isCheck ▸ hcheck
    exact ⟨m, hm, hcheck', hmirrors.instant.symm, hmirrors.before hcheck'⟩
  · simp [Reaper.Move.isCheck, hact] at hcheck

/-! ## Every run is mirrored -/

lemma Run.held_eq (hr : Run s₀ ms s) :
    s.world.control.activity.held = s₀.world.control.activity.held := by
  refine hr.invariant (fun s => s.world.control.activity.held = s₀.world.control.activity.held)
    rfl ?_
  intro s act s' ih h
  rw [h.eq_after, world_after, control_worldAfter, held_controlAfter]
  exact ih

/-- Every run of a service is a run of its reaper, up to the journal. -/
theorem Run.exists_mirrored (hr : Run s₀ ms s) (hheld : s₀.world.control.activity.held = true)
    (journal₀ : List (Nat × Event)) :
    ∃ rs journal, Reaper.Run (s₀.scene journal₀) rs (s.scene journal) ∧ Mirrored ms rs := by
  induction hr with
  | nil => exact ⟨[], journal₀, .nil, .nil⟩
  | @cons ms s s' act hr h ih =>
    obtain ⟨rs, journal, hrun, hmirrored⟩ := ih
    have hholds : s.world.control.activity.held = true := hr.held_eq.trans hheld
    obtain ⟨hcan, rfl⟩ := step_iff.mp h
    have hseen := hrun.cons (can_toReaper hcan hholds)
    by_cases hturn : (Move.mk s act).turn = some true
    · -- the reaper sees two acts: the transport changes, and then a use is reported
      obtain ⟨_, hopens⟩ := exists_opensFor_of_turn hturn
      obtain ⟨_, _, rfl, -⟩ := hopens.isWanted
      obtain ⟨hreport, haccepted, journal', hafter⟩ := exists_scene_opening hturn hholds
      refine ⟨_, journal', hafter ▸ hseen.cons hreport, hmirrored.opening ?_⟩
      refine ⟨rfl, rfl, ?_, rfl, fun _ => rfl, fun h => absurd h Bool.false_ne_true⟩
      rw [haccepted, uses_of_turn hturn]
    · obtain ⟨journal', hafter⟩ := exists_scene_after journal hcan hturn
      exact ⟨_, journal', hafter ▸ hseen, hmirrored.cons (mirrors_toReaper hturn)⟩

end Service

end CheckIn
