/-
# No activity is lost

Whoever holds a handle reports activity of the tunnel at any instant, and the reaper takes the
report that waits when it gets to it, however late.  There is room for one report, and a report
that finds the place taken is dropped.  Yet every report of an open tunnel counts: where it was
dropped another one waits, and that one is taken later and counts from then (`NothingLost`).

Nothing is asked of a run here.  Time may pass while the reaper has something to do, several
things may happen at one instant, and the transport may change at any of them.  All that matters
of an act is what it does to the slot and to the memory of the reaper (`activity_after`,
`lastActivity_after`).
-/
import CheckIn.Proofs.ReaperHistory

namespace CheckIn

namespace Reaper

variable {reaper : Reaper} {world : World} {s₀ s : Scene} {ms : List Move} {m : Move} {act : Act}

/-! ## The slot and the memory -/

/-- Only the taking of a report changes what the reaper remembers. -/
lemma lastActivity_after (s : Scene) (act : Act) :
    (s.after act).reaper.lastActivity = match act with
      | .takeReport => some s.world.nanos
      | _ => s.reaper.lastActivity := by
  cases act with
  | check =>
    cases hw : s.reaper.phase with
    | watching ticker =>
      rw [Scene.after_check hw]
    | _ => simp only [Scene.after, hw]
  | closed =>
    cases hc : s.reaper.phase with
    | closing ticker done =>
      rw [Scene.after_closed hc]
    | _ => simp only [Scene.after, hc]
  | _ => rfl

/-- What an act does to the place for reports. -/
lemma activity_after (s : Scene) (act : Act) :
    (s.after act).world.control.activity = match act with
      | .report =>
        if (Move.mk s .report).accepted then (s.world.control.activity.report true).1
        else s.world.control.activity
      | .dropHandles => { s.world.control.activity with held := false }
      | .takeReport => { s.world.control.activity with pending := false }
      | .leave => { s.world.control.activity with watched := false }
      | _ => s.world.control.activity := by
  cases act with
  | report =>
    refine (congrArg TunnelControl.activity (control_reportActivity s.world)).trans ?_
    exact apply_ite TunnelControl.activity _ _ _
  | check =>
    cases hw : s.reaper.phase with
    | watching ticker =>
      rw [Scene.after_check hw]
      rfl
    | _ => simp only [Scene.after, hw]
  | closed =>
    cases hc : s.reaper.phase with
    | closing ticker done =>
      rw [Scene.after_closed hc]
      rfl
    | _ => simp only [Scene.after, hc]
  | _ => rfl

/-- A reaper that runs after an act ran before it. -/
lemma isRunning_of_after (h : s.can act = true) (hrunning : (s.after act).reaper.isRunning = true) :
    s.reaper.isRunning = true := by
  cases act with
  | check =>
    obtain ⟨ticker, hw, -⟩ := Scene.can_check_iff.mp h
    simp [isRunning, hw]
  | closed =>
    obtain ⟨ticker, done, hc, -⟩ := Scene.can_closed_iff.mp h
    simp [isRunning, hc]
  | leave => cases hrunning
  | _ => exact hrunning

/-- A reaper that runs has run all the time. -/
lemma Run.isRunning_of_mem (hr : Run s₀ ms s) (hrunning : s.reaper.isRunning = true) :
    ∀ m ∈ ms, m.before.reaper.isRunning = true := by
  induction hr with
  | nil => simp
  | cons hr h ih =>
    have hbefore := isRunning_of_after h hrunning
    intro m hm
    rcases List.mem_cons.mp hm with rfl | hm
    · exact hbefore
    · exact ih hbefore m hm

/-- While the reaper runs, it is there to take reports. -/
lemma Run.watched_of_isRunning (hwatched : world.control.activity.watched = true)
    (hr : Run (started reaper world) ms s) :
    s.reaper.isRunning = true → s.world.control.activity.watched = true := by
  refine hr.invariant
    (fun s => s.reaper.isRunning = true → s.world.control.activity.watched = true)
    (fun _ => hwatched) ?_
  intro s act ih h hrunning
  have hbefore := ih (isRunning_of_after h hrunning)
  rw [activity_after]
  cases act with
  | report =>
    dsimp only
    split
    · exact (ActivitySlot.watched_report _ _).trans hbefore
    · exact hbefore
  | leave => cases hrunning
  | _ => exact hbefore

/-- What the reaper remembers is in the past. -/
lemma Run.lastActivity_le (hmemory : reaper.lastActivity = none)
    (hr : Run (started reaper world) ms s) :
    ∀ last, s.reaper.lastActivity = some last → last ≤ s.world.nanos := by
  refine hr.invariant (fun s => ∀ last, s.reaper.lastActivity = some last → last ≤ s.world.nanos)
    ?_ ?_
  · intro last hlast
    cases hmemory.symm.trans hlast
  · intro s act ih h last hlast
    have hle : s.world.nanos ≤ (s.after act).world.nanos :=
      Nat.mul_le_mul_right _ (now_le_after h)
    refine Nat.le_trans ?_ hle
    rw [lastActivity_after] at hlast
    cases act with
    | takeReport => exact Nat.le_of_eq (Option.some.inj hlast).symm
    | _ => exact ih last hlast

/-! ## Reports that fill the place -/

/-- Whether the reaper remembers activity at an instant in milliseconds or after it. -/
def RemembersSince (reaper : Reaper) (instant : Nat) : Prop :=
  ∃ last, reaper.lastActivity = some last ∧ instant * nanosPerMilli ≤ last

/-- Whether a move is a report that finds the place free. -/
def Move.fills (m : Move) : Bool :=
  m.accepted && m.before.world.control.activity.watched &&
    !m.before.world.control.activity.pending

/-- Whether a move takes the report that waits. -/
def Move.takes (m : Move) : Bool :=
  match m.act with
  | .takeReport => true
  | _ => false

/-- A report waits after a report of an open tunnel, if the reaper is there. -/
lemma pending_after_report (hcan : s.can .report = true)
    (hwatched : s.world.control.activity.watched = true)
    (haccepted : (Move.mk s .report).accepted = true) :
    (s.after .report).world.control.activity.pending = true := by
  simp only [activity_after, haccepted, if_true]
  exact ActivitySlot.pending_report hcan hwatched

/-- A report that does not find the place free leaves it as it is. -/
lemma pending_after_report_of_not_fills (hfills : (Move.mk s .report).fills = false) :
    (s.after .report).world.control.activity.pending = s.world.control.activity.pending := by
  simp only [activity_after]
  split
  · next haccepted =>
    simp only [Move.fills, haccepted, Bool.true_and] at hfills
    unfold ActivitySlot.report
    cases hp : s.world.control.activity.pending <;>
      cases hw : s.world.control.activity.watched <;>
        cases hh : s.world.control.activity.held <;> simp_all
  · rfl

/-- Only a report and its taking change whether one waits. -/
lemma pending_after (hreport : act ≠ .report) (htake : act ≠ .takeReport) :
    (s.after act).world.control.activity.pending = s.world.control.activity.pending := by
  rw [activity_after]
  cases act with
  | report => exact absurd rfl hreport
  | takeReport => exact absurd rfl htake
  | _ => rfl

/-- An act that fills the place or empties it changes by one what waits. -/
lemma toNat_pending_after (h : s.can act = true) :
    s.world.control.activity.pending.toNat + (Move.mk s act).fills.toNat =
      (s.after act).world.control.activity.pending.toNat + (Move.mk s act).takes.toNat := by
  cases act with
  | report =>
    show _ = _ + 0
    cases hfills : (Move.mk s .report).fills with
    | true =>
      simp only [Move.fills, Bool.and_eq_true, Bool.not_eq_true'] at hfills
      obtain ⟨⟨haccepted, hwatched⟩, hempty⟩ := hfills
      rw [pending_after_report h hwatched haccepted, hempty]
      rfl
    | false =>
      rw [pending_after_report_of_not_fills hfills]
      rfl
  | takeReport =>
    have hpending : s.world.control.activity.pending = true := by
      simp only [Scene.can, Bool.and_eq_true] at h
      exact h.2
    rw [hpending]
    rfl
  | _ =>
    rw [pending_after (by simp) (by simp)]
    rfl

/-- A report that waits goes on waiting until it is taken. -/
lemma pending_after_of_pending (h : s.can act = true) (hact : act ≠ .takeReport)
    (hpending : s.world.control.activity.pending = true) :
    (s.after act).world.control.activity.pending = true := by
  by_cases hreport : act = .report
  · subst hreport
    rw [pending_after_report_of_not_fills (by simp [Move.fills, hpending]), hpending]
  · rw [pending_after hreport hact, hpending]

/-! ## What a run tells -/

/-- What is known of the reports of a run in which the reaper was started in some world. -/
structure NothingLost (world : World) (ms : List Move) (s : Scene) : Prop where
  /-- A report of an open tunnel to a running reaper is remembered, or a report waits. -/
  covered : ∀ m ∈ ms, m.accepted = true → m.before.reaper.isRunning = true →
    s.world.control.activity.pending = true ∨ s.reaper.RemembersSince m.instant
  /-- The report that waits makes up for all of them when it is taken. -/
  taken : s.can .takeReport = true → ∀ m ∈ ms, m.accepted = true →
    (s.after .takeReport).reaper.RemembersSince m.instant
  /-- As many reports have found the place free as have been taken, and one more if one waits; so
  there is never more than one. -/
  one : ms.countP Move.fills + world.control.activity.pending.toNat =
    ms.countP Move.takes + s.world.control.activity.pending.toNat
  /-- What the reaper remembers never becomes earlier. -/
  monotone : ∀ m ∈ ms, ∀ last, m.before.reaper.lastActivity = some last →
    ∃ later, s.reaper.lastActivity = some later ∧ last ≤ later
  /-- The reaper remembers something only because the open tunnel was reported to be in use, in
  the run or before it. -/
  caused : ∀ last, s.reaper.lastActivity = some last →
    world.control.activity.pending = true ∨
      ∃ m ∈ ms, m.accepted = true ∧ m.instant * nanosPerMilli ≤ last

/-- What is taken counts from now, and so for every report before. -/
lemma Run.remembersSince_takeReport (hr : Run s₀ ms s) :
    ∀ m ∈ ms, (s.after .takeReport).reaper.RemembersSince m.instant := fun m hm =>
  ⟨s.world.nanos, lastActivity_after s .takeReport,
    Nat.mul_le_mul_right _ (hr.instant_bounds.2 m hm).2⟩

/-- What is remembered or waits does so after every act. -/
lemma covered_after {instant : Nat} (h : s.can act = true) (hle : instant ≤ s.world.now)
    (hcovered : s.world.control.activity.pending = true ∨ s.reaper.RemembersSince instant) :
    (s.after act).world.control.activity.pending = true ∨
      (s.after act).reaper.RemembersSince instant := by
  by_cases htake : act = .takeReport
  · subst htake
    exact .inr ⟨s.world.nanos, lastActivity_after s .takeReport, Nat.mul_le_mul_right _ hle⟩
  · rcases hcovered with hpending | ⟨last, hlast, hsince⟩
    · exact .inl (pending_after_of_pending h htake hpending)
    · refine .inr ⟨last, ?_, hsince⟩
      rw [lastActivity_after]
      cases act with
      | takeReport => exact absurd rfl htake
      | _ => exact hlast

/-- A report of an open tunnel to a running reaper is remembered, or a report waits. -/
theorem Run.covered (hwatched : world.control.activity.watched = true)
    (hr : Run (started reaper world) ms s) :
    ∀ m ∈ ms, m.accepted = true → m.before.reaper.isRunning = true →
      s.world.control.activity.pending = true ∨ s.reaper.RemembersSince m.instant := by
  induction hr with
  | nil => simp
  | @cons ms s act hr h ih =>
    intro m hm haccepted hrunning
    rcases List.mem_cons.mp hm with rfl | hm
    · -- the report of this move waits, whether it filled the place or found it taken
      cases act with
      | report =>
        exact .inl (pending_after_report h (hr.watched_of_isRunning hwatched hrunning) haccepted)
      | _ => cases haccepted
    · exact covered_after h (hr.instant_bounds.2 m hm).2 (ih m hm haccepted hrunning)

/-- Reports fill the place and are taken in turn. -/
theorem Run.fills_eq (hr : Run (started reaper world) ms s) :
    ms.countP Move.fills + world.control.activity.pending.toNat =
      ms.countP Move.takes + s.world.control.activity.pending.toNat := by
  induction hr with
  | nil => rfl
  | @cons ms s act hr h ih =>
    have hcount : ∀ p : Move → Bool, (⟨s, act⟩ :: ms).countP p =
        ms.countP p + (p ⟨s, act⟩).toNat := fun p => by
      cases hp : p ⟨s, act⟩ <;> simp [hp]
    have hpending := toNat_pending_after h
    rw [hcount, hcount]
    omega

/-- What the reaper remembers never becomes earlier. -/
theorem Run.lastActivity_mono (hmemory : reaper.lastActivity = none)
    (hr : Run (started reaper world) ms s) :
    ∀ m ∈ ms, ∀ last, m.before.reaper.lastActivity = some last →
      ∃ later, s.reaper.lastActivity = some later ∧ last ≤ later := by
  induction hr with
  | nil => simp
  | @cons ms s act hr h ih =>
    intro m hm last hlast
    have hbefore : ∃ later, s.reaper.lastActivity = some later ∧ last ≤ later := by
      rcases List.mem_cons.mp hm with rfl | hm
      · exact ⟨last, hlast, Nat.le_refl _⟩
      · exact ih m hm last hlast
    obtain ⟨later, hlater, hle⟩ := hbefore
    rw [lastActivity_after]
    cases act with
    | takeReport =>
      exact ⟨s.world.nanos, rfl, Nat.le_trans hle (hr.lastActivity_le hmemory later hlater)⟩
    | _ => exact ⟨later, hlater, hle⟩

/-- A report that waits was made in the run, or waited before it. -/
lemma Run.exists_of_pending (hr : Run (started reaper world) ms s)
    (hpending : s.world.control.activity.pending = true) :
    world.control.activity.pending = true ∨ ∃ m ∈ ms, m.accepted = true := by
  cases hbefore : world.control.activity.pending with
  | true => exact .inl rfl
  | false =>
    have hcount := hr.fills_eq
    rw [hpending, hbefore] at hcount
    have hpos : 0 < ms.countP Move.fills := by
      simp only [Bool.toNat_false, Bool.toNat_true] at hcount
      omega
    obtain ⟨m, hm, hfills⟩ := List.countP_pos_iff.mp hpos
    simp only [Move.fills, Bool.and_eq_true] at hfills
    exact .inr ⟨m, hm, hfills.1.1⟩

/-- The reaper remembers something only because of a report. -/
theorem Run.exists_of_lastActivity (hmemory : reaper.lastActivity = none)
    (hr : Run (started reaper world) ms s) :
    ∀ last, s.reaper.lastActivity = some last → world.control.activity.pending = true ∨
      ∃ m ∈ ms, m.accepted = true ∧ m.instant * nanosPerMilli ≤ last := by
  induction hr with
  | nil =>
    intro last hlast
    cases hmemory.symm.trans hlast
  | @cons ms s act hr h ih =>
    intro last hlast
    rw [lastActivity_after] at hlast
    have hearlier : (world.control.activity.pending = true ∨
        ∃ m ∈ ms, m.accepted = true ∧ m.instant * nanosPerMilli ≤ last) →
        world.control.activity.pending = true ∨
          ∃ m ∈ ⟨s, act⟩ :: ms, m.accepted = true ∧ m.instant * nanosPerMilli ≤ last :=
      Or.imp_right fun ⟨m, hm, hlast⟩ => ⟨m, List.mem_cons_of_mem _ hm, hlast⟩
    refine hearlier ?_
    cases act with
    | takeReport =>
      obtain rfl := Option.some.inj hlast
      simp only [Scene.can, Bool.and_eq_true] at h
      refine (hr.exists_of_pending h.2).imp_right ?_
      rintro ⟨m, hm, haccepted⟩
      exact ⟨m, hm, haccepted, Nat.mul_le_mul_right _ (hr.instant_bounds.2 m hm).2⟩
    | _ => exact ih last hlast

/-- In every run of a reaper, whoever reports at whatever instants and however late the reports
are taken, no report of an open tunnel is lost to a running reaper: it is remembered, or a report
waits that makes up for it.  At most one report waits, what is remembered never becomes earlier,
and it is there only because an open tunnel was reported to be in use. -/
theorem Run.nothing_lost (hmemory : reaper.lastActivity = none)
    (hwatched : world.control.activity.watched = true)
    (hr : Run (started reaper world) ms s) : NothingLost world ms s where
  covered := hr.covered hwatched
  taken _ m hm _ := hr.remembersSince_takeReport m hm
  one := hr.fills_eq
  monotone := hr.lastActivity_mono hmemory
  caused := hr.exists_of_lastActivity hmemory

/-- Two reports of which the second one finds the place taken, one while the tunnel is gone, and
one that comes after the first has been taken late. -/
def reportingFast : List Act :=
  [.wait 5000, .report, .wait 7000, .report, .transport {}, .report, .wait 40000, .check,
    .takeReport, .transport { isOpen := true }, .wait 41000, .report]

/-- A reaper that remembers the reports of the first seven seconds, although it took one of the
two, and took it at second 40; the last report waits. -/
theorem reported_fast : ∃ reaper world ms s, reaper.lastActivity = none ∧
    world.control.activity.watched = true ∧ Run (started reaper world) ms s ∧
    (ms.filter Move.accepted).map Move.instant = [41000, 7000, 5000] ∧
    (ms.filter Move.fills).map Move.instant = [41000, 5000] ∧
    s.reaper.lastActivity = some (40000 * nanosPerMilli) ∧
    s.world.control.activity.pending = true ∧ NothingLost world ms s := by
  obtain ⟨ms, s, hr, h⟩ := exists_run
    (started attentive { control := ⟨{ isOpen := true }, {}⟩ }) reportingFast
    (fun ms s => (ms.filter Move.accepted).map Move.instant == [41000, 7000, 5000] &&
      (ms.filter Move.fills).map Move.instant == [41000, 5000] &&
      s.reaper.lastActivity == some (40000 * nanosPerMilli) &&
      s.world.control.activity.pending) (by decide +kernel)
  simp only [Bool.and_eq_true, beq_iff_eq] at h
  obtain ⟨⟨⟨haccepted, hfills⟩, hlast⟩, hpending⟩ := h
  exact ⟨attentive, { control := ⟨{ isOpen := true }, {}⟩ }, ms, s, rfl, rfl, hr, haccepted,
    hfills, hlast, hpending, Run.nothing_lost rfl rfl hr⟩

end Reaper

end CheckIn
