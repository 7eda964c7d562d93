/-
# Tunnels that close and open again by themselves

The transport may close its tunnel and open another one without being called.  The reaper never
hears of that: it asks whether a tunnel is there when it looks, and what it remembers is when
activity was last reported, of whatever tunnel that was.  So what it closes has not been reported
to be in use for the timeout.  It has been open for the timeout too, if its use was reported since
it opened (`Run.closes_only_unused`).

A tunnel that opened by itself and was not reported to be in use yet is measured by the last
report of the one before it, and can be closed at once (`not_closes_only_unused`).  The same place
shows why a check must not share an instant with the end of an earlier close: the report that
waited for that end may be taken after the check.
-/
import CheckIn.Proofs.ActivityReports
import Mathlib.Data.List.TakeWhile

namespace CheckIn

namespace Reaper

variable {reaper : Reaper} {world : World} {s : Scene} {ms past : List Move} {m m' : Move}
  {act : Act}

/-- Whether a move finds the tunnel open. -/
def Move.findsOpen (m : Move) : Bool := m.before.world.control.transport.isOpen

/-- Whether the tunnel was reported to be in use since it last opened, or since the start. -/
def reportedSinceOpening (ms : List Move) : Bool :=
  (ms.takeWhile Move.findsOpen).any Move.accepted

/-- Every check is made later than the reports and the ends of closes before it. -/
def ChecksApart (ms : List Move) : Prop :=
  ms.Pairwise fun m earlier => m.isCheck = true →
    (earlier.accepted || earlier.endsClose) = true → earlier.instant ≠ m.instant

instance (ms : List Move) : Decidable (ChecksApart ms) :=
  inferInstanceAs (Decidable (ms.Pairwise fun m earlier => m.isCheck = true →
    (earlier.accepted || earlier.endsClose) = true → earlier.instant ≠ m.instant))

/-! ## No report waits at a check -/

/-- The next check is due after the start. -/
lemma Run.start_lt_deadline (hinterval : 0 < reaper.interval.nanos)
    (hr : Run (started reaper world) ms s) :
    ∀ ticker, (s.reaper.phase = .watching ticker ∨ ∃ done, s.reaper.phase = .closing ticker done) →
      world.nanos < ticker.deadline := by
  refine hr.invariant (fun s => ∀ ticker, (s.reaper.phase = .watching ticker ∨
    ∃ done, s.reaper.phase = .closing ticker done) → world.nanos < ticker.deadline) ?_ ?_
  · rintro ticker (hw | ⟨done, hc⟩)
    · cases hw
      exact Nat.lt_add_of_pos_right hinterval
    · cases hc
  · intro s act ih h
    cases act with
    | check =>
      obtain ⟨ticker, hw, -⟩ := Scene.can_check_iff.mp h
      have hlt : world.nanos < (ticker.tick s.world.nanos).deadline :=
        Nat.lt_of_lt_of_le (ih ticker (.inl hw))
          (Nat.le_trans (Nat.le_add_right _ _) (ticker.deadline_add_period_le_tick _))
      rw [Scene.after_check hw, phaseAfter]
      rintro next (hnext | ⟨done, hnext⟩) <;> split at hnext <;> cases hnext <;> exact hlt
    | closed =>
      obtain ⟨ticker, done, hc, -⟩ := Scene.can_closed_iff.mp h
      rw [Scene.after_closed hc]
      rintro next (hnext | ⟨_, hnext⟩) <;> cases hnext
      exact ih ticker (.inr ⟨done, hc⟩)
    | leave => rintro ticker (hw | ⟨done, hc⟩) <;> contradiction
    | _ => exact ih

/-- Where nothing is late, a report that waits for a reaper without other work was made or became
free to be taken at this very instant. -/
lemma Run.waits_now (hr : Run (started reaper world) ms s) (hprompt : Prompt ms)
    (hwatching : s.reaper.isWatching = true)
    (hpending : s.world.control.activity.pending = true) :
    s.world.now = world.now ∨
      ∃ m ∈ ms, (m.accepted || m.endsClose) = true ∧ m.instant = s.world.now := by
  induction hr with
  | nil => exact .inl rfl
  | @cons ms s act hr h ih =>
    have ih := ih hprompt.of_cons
    -- what has happened at this instant has happened after an act of this instant too
    have hearlier : (∀ instant, act ≠ .wait instant) → s.reaper.isWatching = true →
        s.world.control.activity.pending = true → (s.after act).world.now = world.now ∨
          ∃ m ∈ ⟨s, act⟩ :: ms, (m.accepted || m.endsClose) = true ∧
            m.instant = (s.after act).world.now := by
      intro hact hw hp
      have hnow : (s.after act).world.now = s.world.now := by
        rw [now_after]
        cases act with
        | wait instant => exact absurd rfl (hact instant)
        | _ => rfl
      rw [hnow]
      refine (ih hw hp).imp_right ?_
      rintro ⟨m, hm, hcause⟩
      exact ⟨m, List.mem_cons_of_mem _ hm, hcause⟩
    cases act with
    | report =>
      cases haccepted : (Move.mk s .report).accepted with
      | true =>
        refine .inr ⟨_, List.mem_cons_self, by rw [haccepted]; rfl, ?_⟩
        exact (now_after s .report).symm
      | false =>
        rw [activity_after] at hpending
        simp only [haccepted, Bool.false_eq_true, if_false] at hpending
        exact hearlier (by simp) hwatching hpending
    | closed =>
      refine .inr ⟨_, List.mem_cons_self, Bool.or_true _, ?_⟩
      exact (now_after s .closed).symm
    | takeReport =>
      rw [activity_after] at hpending
      cases hpending
    | check =>
      obtain ⟨ticker, hw, -⟩ := Scene.can_check_iff.mp h
      rw [pending_after (by simp) (by simp)] at hpending
      exact hearlier (by simp) (isWatching_iff.mpr ⟨ticker, hw⟩) hpending
    | leave => cases hwatching
    | wait instant =>
      -- the reaper would have taken the report before time passes
      obtain ⟨ticker, hw⟩ := isWatching_iff.mp hwatching
      have hphase : s.reaper.phase = .watching ticker := hw
      have hwaits : s.world.control.activity.pending = true := hpending
      have hmoves := hprompt.rests.1
      simp [moves, hphase, hwaits] at hmoves
    | dropHandles | cancel | transport | closeDelay =>
      exact hearlier (by simp) hwatching hpending

/-- No report waits at a check. -/
lemma Run.pending_eq_false_of_check (hinterval : 0 < reaper.interval.nanos)
    (hr : Run (started reaper world) ms s) (hprompt : Prompt ms) (h : s.can .check = true)
    (hapart : ∀ m ∈ ms, (m.accepted || m.endsClose) = true → m.instant ≠ s.world.now) :
    s.world.control.activity.pending = false := by
  obtain ⟨ticker, hw, hdue⟩ := Scene.can_check_iff.mp h
  by_contra hpending
  rcases hr.waits_now hprompt (isWatching_iff.mpr ⟨ticker, hw⟩) (by simpa using hpending) with
    hstart | ⟨m, hm, hcause, hnow⟩
  · have hlt := hr.start_lt_deadline hinterval ticker (.inl hw)
    have hle := (ticker.isDue_iff s.world.now).mp hdue
    rw [hstart] at hle
    exact Nat.lt_irrefl _ (Nat.lt_of_lt_of_le hlt hle)
  · exact hapart m hm hcause hnow

/-! ## What is closed was unused -/

/-- What is known of the tunnel that a check has closed, from the moves before the check. -/
structure Unused (timeout : Duration) (past : List Move) (m : Move) : Prop where
  isCheck : m.act = .check
  /-- A tunnel is there. -/
  isOpen : m.findsOpen = true
  /-- Its use was not reported within the timeout before the check. -/
  unreported : ∀ m' ∈ past, m'.accepted = true →
    m'.instant * nanosPerMilli + timeout.nanos ≤ m.instant * nanosPerMilli
  /-- If its use was reported since it opened, it has been there for all of the timeout. -/
  uninterrupted : reportedSinceOpening past = true → ∀ m' ∈ past,
    m.instant * nanosPerMilli < m'.instant * nanosPerMilli + timeout.nanos → m'.findsOpen = true

/-- A check that has the tunnel closed remembers an activity that is the timeout ago. -/
lemma exists_of_closesNow (h : s.reaper.closesNow s.world = true) :
    s.world.control.transport.isOpen = true ∧ ∃ last, s.reaper.lastActivity = some last ∧
      s.reaper.timeout.nanos ≤ s.world.nanos - last := by
  rw [closesNow, Bool.and_eq_true, Bool.and_eq_true] at h
  obtain ⟨⟨-, hopen⟩, hexpired⟩ := h
  cases hlast : s.reaper.lastActivity with
  | none =>
    rw [hlast] at hexpired
    cases hexpired
  | some last =>
    rw [hlast] at hexpired
    exact ⟨hopen, last, rfl, of_decide_eq_true hexpired⟩

/-- The moves of a run are in the order of their instants, the latest first. -/
lemma Run.instant_le (hr : Run (started reaper world) ms s) {recent : List Move}
    (hms : recent ++ m :: past = ms) : ∀ m' ∈ m :: past, m'.instant ≤ m.instant := by
  have hsuffix : m :: past <:+ ms := ⟨recent, hms⟩
  have hrun := (hr.of_suffix hsuffix).1
  intro m' hm'
  rcases List.mem_cons.mp hm' with rfl | hm'
  · exact Nat.le_refl _
  · exact (hrun.instant_bounds.2 m' hm').2

/-- The tunnel has been there since a report that was made after it opened. -/
lemma Run.findsOpen_of_reported (hr : Run (started reaper world) ms s)
    (hreported : reportedSinceOpening ms = true) :
    ∃ report ∈ ms, report.accepted = true ∧
      ∀ m ∈ ms, report.instant < m.instant → m.findsOpen = true := by
  obtain ⟨report, hmem, haccepted⟩ := List.any_eq_true.mp hreported
  obtain ⟨recent, earlier, hsplit⟩ := List.append_of_mem hmem
  have hms : recent ++ report :: (earlier ++ ms.dropWhile Move.findsOpen) = ms := by
    rw [← List.cons_append, ← List.append_assoc, ← hsplit, List.takeWhile_append_dropWhile]
  refine ⟨report, (List.takeWhile_prefix _).subset hmem, haccepted, ?_⟩
  intro m hm hlt
  rw [← hms] at hm
  rcases List.mem_append.mp hm with hrecent | hbefore
  · refine List.mem_takeWhile_imp (p := Move.findsOpen) (l := ms) ?_
    rw [hsplit]
    exact List.mem_append_left _ hrecent
  · exact absurd (hr.instant_le hms m hbefore) (Nat.not_le.mpr hlt)

/-- Over a transport that opens and closes as it likes, what the reaper closes is there, and its
use has not been reported for the timeout; and it has been there for the timeout, if its use was
reported since it opened. -/
theorem Run.closes_only_unused (hinterval : 0 < reaper.interval.nanos)
    (hwatched : world.control.activity.watched = true)
    (hr : Run (started reaper world) ms s) (hprompt : Prompt ms) (hapart : ChecksApart ms) :
    ∀ m past, m :: past <:+ ms → .closeTunnel ∈ m.events → Unused reaper.timeout past m := by
  intro m past hm hcloses
  obtain ⟨hrun, hcan⟩ := hr.of_suffix hm
  have hsuffix : past <:+ ms := (List.suffix_cons m past).trans hm
  rw [Reaper.closeTunnel_mem_iff, Move.closes, Bool.and_eq_true, Move.isCheck_iff] at hcloses
  obtain ⟨hact, hcloses⟩ := hcloses
  obtain ⟨hopen, last, hlast, hexpired⟩ := exists_of_closesNow hcloses
  rw [hact] at hcan
  have hempty : m.before.world.control.activity.pending = false := by
    refine hrun.pending_eq_false_of_check hinterval
      (fun m' hm' => hprompt m' (hsuffix.subset hm')) hcan fun m' hm' => ?_
    exact (List.pairwise_cons.mp (hapart.sublist hm.sublist)).1 m' hm'
      (m.isCheck_iff.mpr hact)
  have hrunning : m.before.reaper.isRunning = true := by
    obtain ⟨ticker, hw, -⟩ := Scene.can_check_iff.mp hcan
    simp [isRunning, hw]
  have htimeout : m.before.reaper.timeout = reaper.timeout := hrun.alike.timeout
  have hunreported : ∀ m' ∈ past, m'.accepted = true →
      m'.instant * nanosPerMilli + reaper.timeout.nanos ≤ m.instant * nanosPerMilli := by
    intro m' hm' haccepted
    rcases hrun.covered hwatched m' hm' haccepted (hrun.isRunning_of_mem hrunning m' hm') with
      hpending | ⟨last', hlast', hsince⟩
    · rw [hempty] at hpending
      cases hpending
    · obtain rfl := Option.some.inj (hlast.symm.trans hlast')
      have hle : m'.instant * nanosPerMilli ≤ m.before.world.nanos :=
        Nat.mul_le_mul_right _ (hrun.instant_bounds.2 m' hm').2
      rw [htimeout] at hexpired
      show _ ≤ m.before.world.nanos
      omega
  refine ⟨hact, hopen, hunreported, ?_⟩
  intro hreported m' hm' hrecent
  obtain ⟨report, hreport, haccepted, hfinds⟩ := hrun.findsOpen_of_reported hreported
  refine hfinds m' hm' (Nat.lt_of_mul_lt_mul_right (a := nanosPerMilli) ?_)
  have hbefore := hunreported report hreport haccepted
  omega

/-! ## Tunnels that open again -/

/-- The tunnel is used, and is gone for two seconds; the one after it is used once. -/
def usedAgain : List Act :=
  [.wait 5000, .report, .takeReport, .wait 10000, .transport {}, .wait 12000,
    .transport { isOpen := true }, .wait 13000, .report, .takeReport, .wait 30000, .check, .closed]

/-- A tunnel that opened by itself and was used once is closed when that is the timeout ago. -/
theorem closed_after_reopening : ∃ reaper world ms s m past,
    0 < reaper.interval.nanos ∧ world.control.activity.watched = true ∧
    Run (started reaper world) ms s ∧ Prompt ms ∧ ChecksApart ms ∧ m :: past <:+ ms ∧
    .closeTunnel ∈ m.events ∧ m.instant = 30000 ∧ reportedSinceOpening past = true ∧
    (past.filter (!·.findsOpen)).map Move.instant = [12000, 10000] ∧
    Unused reaper.timeout past m := by
  obtain ⟨ms, s, hr, h⟩ := exists_run
    (started attentive { control := ⟨{ isOpen := true }, {}⟩ }) usedAgain
    (fun ms _ => decide (Prompt ms) && decide (ChecksApart ms) && ms.tails.any fun
      | m :: past => m.closes && m.instant == 30000 && reportedSinceOpening past &&
        (past.filter (!·.findsOpen)).map Move.instant == [12000, 10000]
      | [] => false) (by decide +kernel)
  simp only [Bool.and_eq_true, decide_eq_true_eq] at h
  obtain ⟨⟨hprompt, hapart⟩, htail⟩ := h
  obtain ⟨tail, hmem, htail⟩ := List.any_eq_true.mp htail
  cases tail with
  | nil => cases htail
  | cons m past =>
    simp only [Bool.and_eq_true, beq_iff_eq] at htail
    obtain ⟨⟨⟨hcloses, hinstant⟩, hreported⟩, hgone⟩ := htail
    have hsuffix : m :: past <:+ ms := (List.mem_tails _ _).mp hmem
    have hcalled := (closeTunnel_mem_iff m).mpr hcloses
    have hinterval : 0 < attentive.interval.nanos := by decide
    exact ⟨attentive, _, ms, s, m, past, hinterval, rfl, hr, hprompt, hapart, hsuffix, hcalled,
      hinstant, hreported, hgone,
      Run.closes_only_unused hinterval rfl hr hprompt hapart m past hsuffix hcalled⟩

/-- The tunnel is used, and is gone; another one opens five seconds before the check. -/
def openedAgain : List Act :=
  [.wait 5000, .report, .takeReport, .wait 10000, .transport {}, .wait 25000,
    .transport { isOpen := true }, .wait 30000, .check]

/-- The first close takes 40 seconds and fails.  Use is reported five seconds before its end, and
the next check takes place at its end, before the report is taken. -/
def checkedFirst : List Act :=
  [.wait 5000, .report, .takeReport, .wait 30000, .check, .wait 65000, .report, .wait 70000,
    .closed, .check]

/-- Although nothing is late, and no two of the checks and of the things done to the reaper or the
transport share an instant, a tunnel is closed that opened within the timeout; and although its
use was reported within the timeout, a tunnel is closed by a check at the end of an earlier
close. -/
theorem not_closes_only_unused :
    (¬ ∀ reaper world ms s, 0 < reaper.interval.nanos → world.control.activity = {} →
      Run (started reaper world) ms s → Prompt ms → Apart ms →
        ∀ m past, m :: past <:+ ms → .closeTunnel ∈ m.events → ∀ m' ∈ past,
          m.instant * nanosPerMilli < m'.instant * nanosPerMilli + reaper.timeout.nanos →
            m'.findsOpen = true) ∧
    (¬ ∀ reaper world ms s, 0 < reaper.interval.nanos → world.control.activity = {} →
      Run (started reaper world) ms s → Prompt ms → Apart ms →
        ∀ m past, m :: past <:+ ms → .closeTunnel ∈ m.events → ∀ m' ∈ past,
          m'.accepted = true →
            m'.instant * nanosPerMilli + reaper.timeout.nanos ≤ m.instant * nanosPerMilli) := by
  constructor
  · intro hopen
    obtain ⟨ms, s, hr, h⟩ := exists_run
      (started attentive { control := ⟨{ isOpen := true }, {}⟩ }) openedAgain
      (fun ms _ => decide (Prompt ms) && decide (Apart ms) && match ms with
        | m :: past => m.closes && m.instant == 30000 &&
          past.any fun m' => m'.instant == 25000 && !m'.findsOpen
        | [] => false) (by decide +kernel)
    simp only [Bool.and_eq_true, decide_eq_true_eq] at h
    obtain ⟨⟨hprompt, hapart⟩, hcheck⟩ := h
    match ms with
    | [] => cases hcheck
    | m :: past =>
      simp only [Bool.and_eq_true, beq_iff_eq, List.any_eq_true, Bool.not_eq_true'] at hcheck
      obtain ⟨⟨hcloses, hinstant⟩, m', hm', hearlier, hgone⟩ := hcheck
      have hfinds := hopen _ _ _ s (by decide) rfl hr hprompt hapart m past List.suffix_rfl
        ((closeTunnel_mem_iff m).mpr hcloses) m' hm' (by rw [hinstant, hearlier]; decide)
      rw [hgone] at hfinds
      cases hfinds
  · intro hunreported
    obtain ⟨ms, s, hr, h⟩ := exists_run
      (started attentive { stubborn with closeDelay := 40000 }) checkedFirst
      (fun ms _ => decide (Prompt ms) && decide (Apart ms) && match ms with
        | m :: past => m.closes && m.instant == 70000 &&
          past.any fun m' => m'.instant == 65000 && m'.accepted
        | [] => false) (by decide +kernel)
    simp only [Bool.and_eq_true, decide_eq_true_eq] at h
    obtain ⟨⟨hprompt, hapart⟩, hcheck⟩ := h
    match ms with
    | [] => cases hcheck
    | m :: past =>
      simp only [Bool.and_eq_true, beq_iff_eq, List.any_eq_true] at hcheck
      obtain ⟨⟨hcloses, hinstant⟩, m', hm', hearlier, haccepted⟩ := hcheck
      have hlate := hunreported _ _ _ s (by decide) rfl hr hprompt hapart m past List.suffix_rfl
        ((closeTunnel_mem_iff m).mpr hcloses) m' hm' haccepted
      rw [hinstant, hearlier] at hlate
      exact absurd hlate (by decide)

end Reaper

end CheckIn
