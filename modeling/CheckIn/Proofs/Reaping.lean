/-
# When the reaper closes the tunnel

The reaper remembers when the tunnel was last used, and never forgets it: neither when the tunnel
is closed nor when it is opened again.  But opening a tunnel is a use of it.  So an open tunnel has
been used (`Run.exists_turn_of_tunnelIsOpen`), and what the reaper knows of earlier tunnels does not
count.

The checks take place on a grid that is fixed when the service is started, and the history tells
which of them have the tunnel closed.  Both come from the reaper on its own (`OnSchedule`,
`Remembers`), of which the reaper of the service is a run (`Run.exists_reaperRun`); what the poll
loop does plays no part.  As there, nothing may be late, and every close by the reaper has to end
before the next check is due.  A close that takes longer delays that check, and a use of the tunnel
during a close counts from its end (`not_reaping`).
-/
import CheckIn.Proofs.ServiceReaper

namespace CheckIn

namespace Service

/-- The milliseconds from one check to the next. -/
def checkMillis : Nat := 30000

/-- What a check has closed is closed, or has failed to be, before the next check is due. -/
def ClosedInTime (ms : List Move) : Prop :=
  ∀ m ∈ ms, m.isCheck = true → m.callsClose = true → m.before.world.closeDelay < checkMillis

instance (ms : List Move) : Decidable (ClosedInTime ms) :=
  inferInstanceAs (Decidable (∀ m ∈ ms, m.isCheck = true → m.callsClose = true →
    m.before.world.closeDelay < checkMillis))

/-- The tunnel is not used at the instant of a check. -/
def UsedApart (ms : List Move) : Prop :=
  ∀ m ∈ ms, m.isCheck = true → ∀ m' ∈ ms, m'.uses = true → m'.instant ≠ m.instant

instance (ms : List Move) : Decidable (UsedApart ms) :=
  inferInstanceAs (Decidable (∀ m ∈ ms, m.isCheck = true → ∀ m' ∈ ms, m'.uses = true →
    m'.instant ≠ m.instant))

variable {config : Config} {setup : Setup} {world : World} {s₀ s s' : Service} {act : Act}
  {ms past : List Move} {m m' : Move} {r : Reaper.Move} {rs : List Reaper.Move}

lemma ClosedInTime.of_suffix (h : ClosedInTime ms) (hm : past <:+ ms) : ClosedInTime past :=
  fun m' hm' => h m' (hm.subset hm')

lemma UsedApart.of_suffix (h : UsedApart ms) (hm : past <:+ ms) : UsedApart past :=
  fun m' hm' hcheck m'' hm'' => h m' (hm.subset hm') hcheck m'' (hm.subset hm'')

/-! ## The reaper of a run -/

/-- The reaper with which a service is started. -/
def watcher (config : Config) : Reaper where
  interval := Reaper.checkInterval
  timeout := config.inactivityTimeout

/-- The world in which the loops of a service are started. -/
def Setup.enter (setup : Setup) (world : World) : World :=
  { world with hasTunnel := setup.hasTunnel, control := ⟨setup.transport, {}⟩, cancelled := false }

lemma nanos_checkInterval : Reaper.checkInterval.nanos = checkMillis * nanosPerMilli := rfl

/-- If the run of a service is orderly, so is that of its reaper. -/
lemma Mirrored.orderly (h : Mirrored ms rs) (hp : Prompt ms) (hd : ClosedInTime ms)
    (ha : UsedApart ms) (hinterval : ∀ r ∈ rs, r.before.reaper.interval = Reaper.checkInterval) :
    Reaper.Orderly rs := by
  constructor
  · intro r hr
    rcases h.exists_of_mem hr with ⟨m, hm, hmirrors⟩ | ⟨next, hact⟩
    · exact hmirrors.isPrompt (hp m hm)
    · rw [Reaper.Move.isPrompt, hact]
  · intro r hr hcloses
    obtain ⟨hcheck, hcloses⟩ := (Bool.and_eq_true _ _).mp hcloses
    obtain ⟨⟨before, act⟩, hm, hcheck', -, journal, hbefore⟩ := h.exists_of_isCheck hr hcheck
    obtain rfl : act = .check := (Move.isCheck_iff _).mp hcheck'
    rw [hbefore] at hcloses
    have hcalls : (Move.mk before .check).callsClose = true :=
      (Move.callsClose_iff _).mpr ((closeTunnel_mem_check_iff before).mpr hcloses)
    rw [hinterval r hr, nanos_checkInterval, hbefore]
    exact Nat.mul_lt_mul_of_pos_right (hd _ hm hcheck' hcalls) (by decide)
  · intro r hr hcheck r' hr' haccepted
    obtain ⟨m, hm, hcheck', hinstant, -⟩ := h.exists_of_isCheck hr hcheck
    obtain ⟨m', hm', huses, hinstant'⟩ := h.exists_of_accepted hr' haccepted
    rw [← hinstant, ← hinstant']
    exact ha m hm hcheck' m' hm' huses

/-- In an orderly run of a service, its reaper has an orderly run of its own. -/
theorem Run.exists_reaperRun (hs : spawnWithSource config setup world = .ok s₀) (hr : Run s₀ ms s)
    (hp : Prompt ms) (hd : ClosedInTime ms) (ha : UsedApart ms) :
    ∃ rs journal,
      Reaper.Run (Reaper.started (watcher config) (setup.enter world)) rs (s.scene journal) ∧
        Reaper.Orderly rs ∧ Mirrored ms rs := by
  obtain ⟨cadence, -, rfl⟩ := exists_cadence_of_spawn hs
  have hbegun : (begun config setup world cadence).scene
      (begun config setup world cadence).world.journal =
        Reaper.started (watcher config) (setup.enter world) := rfl
  obtain ⟨rs, journal, hrun, hmirrored⟩ := hr.exists_mirrored rfl _
  rw [hbegun] at hrun
  refine ⟨rs, journal, hrun, hmirrored.orderly hp hd ha ?_, hmirrored⟩
  intro r hr
  obtain ⟨past, hsuffix⟩ := Reaper.exists_suffix_of_mem hr
  exact (hrun.of_suffix hsuffix).1.alike.interval

/-! ## Checks -/

/-- Every check is the next point of the grid. -/
lemma Run.instant_of_check (hs : spawnWithSource config setup world = .ok s₀) (hr : Run s₀ past s)
    (h : Step s .check s') (hp : Prompt past) (hd : ClosedInTime past) (ha : UsedApart past) :
    s.world.now = world.now + checkMillis * (checks past + 1) := by
  obtain ⟨rs, journal, hrun, ho, hmirrored⟩ := hr.exists_reaperRun hs hp hd ha
  have hcan : (s.scene journal).can .check = true := h.can
  have hnow := (hrun.onSchedule (by decide) nanos_checkInterval ho).now_of_check hcan
  rw [hmirrored.sameHistory.count] at hnow
  exact hnow

/-- A tunnel that is there at a check was used before, and it is closed exactly if the instant from
which that counts is at least the timeout ago. -/
lemma Run.closes_of_check (hs : spawnWithSource config setup world = .ok s₀)
    (hclosed : setup.transport.isOpen = false) (hr : Run s₀ past s) (h : Step s .check s')
    (hp : Prompt past) (hu : Undisturbed past) (hd : ClosedInTime past) (ha : UsedApart past)
    (hapart : ∀ m ∈ past, m.uses = true → m.instant ≠ s.world.now) (ho : s.tunnelIsOpen = true) :
    ∃ use, lastUse past = some use ∧ use < s.world.now ∧
      (.closeTunnel ∈ (Move.mk s .check).events ↔
        config.inactivityTimeout.nanos ≤ (s.world.now - use) * nanosPerMilli) := by
  obtain ⟨rs, journal, hrun, horderly, hmirrored⟩ := hr.exists_reaperRun hs hp hd ha
  have hcan : (s.scene journal).can .check = true := h.can
  have hreported : ∀ r ∈ rs, r.accepted = true → r.instant ≠ (s.scene journal).world.now := by
    intro r hmem haccepted
    obtain ⟨m, hm, huses, hinstant⟩ := hmirrored.exists_of_accepted hmem haccepted
    rw [← hinstant]
    exact hapart m hm huses
  have hcloses := hrun.closes_iff (by decide) nanos_checkInterval rfl rfl horderly hcan hreported
  -- what is open was used, since it was opened
  have h₀ : s₀.tunnelIsOpen = false := by
    obtain ⟨cadence, -, rfl⟩ := exists_cadence_of_spawn hs
    exact hclosed
  obtain ⟨htunnel, m, hm, hturn⟩ := hr.exists_turn_of_tunnelIsOpen hu h₀ ho
  obtain ⟨use, hlast, -⟩ := hr.le_lastUse hm (uses_of_turn hturn)
  have hreport : Reaper.lastReport (Reaper.firstReport (setup.enter world)) rs = some use :=
    hmirrored.sameHistory.last.trans hlast
  have hearlier : use < s.world.now :=
    hrun.lastReport_lt (by decide) nanos_checkInterval horderly hcan hreported hreport
  refine ⟨use, hlast, hearlier, ?_⟩
  rw [closeTunnel_mem_check_iff]
  refine hcloses.trans ?_
  constructor
  · rintro ⟨-, -, report, hreport', -, hexpired⟩
    obtain rfl := Option.some.inj (hreport.symm.trans hreport')
    exact hexpired
  · intro hexpired
    exact ⟨hrun.alike.hasTunnel.symm.trans htunnel, ho, use, hreport, hearlier, hexpired⟩

/-- The checks of a service that is started without a tunnel follow the grid, whatever the poll
loop does, and none of them is left out.  If there is a tunnel at a check, then it was used
before, and it is closed exactly if the instant from which the last use counts is at least the
timeout ago; so it is never closed sooner than that after it was opened, however often it was
opened before. -/
theorem Run.reaping (hs : spawnWithSource config setup world = .ok s₀)
    (hclosed : setup.transport.isOpen = false) (hr : Run s₀ ms s) (hp : Prompt ms)
    (hu : Undisturbed ms) (hd : ClosedInTime ms) (ha : UsedApart ms) :
    (∀ m past, m :: past <:+ ms → m.act = .check →
      m.instant = world.now + checkMillis * (checks past + 1) ∧
      (m.before.tunnelIsOpen = true → ∃ use, lastUse past = some use ∧ use < m.instant ∧
        (.closeTunnel ∈ m.events ↔
          config.inactivityTimeout.nanos ≤ (m.instant - use) * nanosPerMilli)) ∧
      (.closeTunnel ∈ m.events → ∀ m' ∈ past, m'.turn = some true →
        config.inactivityTimeout.nanos ≤ (m.instant - m'.instant) * nanosPerMilli)) ∧
    (s.world.cancelled = false → s.world.now ≤ world.now + checkMillis * (checks ms + 1)) := by
  constructor
  · rintro ⟨before, act⟩ past hm hact
    obtain rfl : act = .check := hact
    -- what is known at the check comes from the run up to it
    obtain ⟨hrun, hstep⟩ := hr.of_suffix hm
    have hsuffix : past <:+ ms := (List.suffix_cons _ past).trans hm
    have hp' := hp.of_suffix hsuffix
    have hu' : Undisturbed past := fun m' hm' => hu m' (hsuffix.subset hm')
    have hd' := hd.of_suffix hsuffix
    have ha' := ha.of_suffix hsuffix
    have hiff := hrun.closes_of_check hs hclosed hstep hp' hu' hd' ha' fun m' hm' =>
      ha _ (hm.subset List.mem_cons_self) rfl m' (hsuffix.subset hm')
    refine ⟨hrun.instant_of_check hs hstep hp' hd' ha', hiff, ?_⟩
    intro hcloses m' hm' hturn
    obtain ⟨use, hlast, -, hcheck⟩ := hiff (closes_of_mem hcloses).isOpen
    -- the opening is a use, and so not after the last one
    obtain ⟨_, hlast', hle⟩ := hrun.le_lastUse hm' (uses_of_turn hturn)
    rw [hlast] at hlast'
    obtain rfl := Option.some.inj hlast'
    exact Nat.le_trans (hcheck.mp hcloses) (Nat.mul_le_mul_right _ (Nat.sub_le_sub_left hle _))
  · intro hrunning
    obtain ⟨rs, journal, hrun, horderly, hmirrored⟩ := hr.exists_reaperRun hs hp hd ha
    rw [← hmirrored.sameHistory.count]
    exact (hrun.onSchedule (by decide) nanos_checkInterval horderly).now_le hrunning

/-! ## Closes that take time -/

/-- Whether some move of a run, with the moves before it, is one that is looked for. -/
def anyMove (found : Move → List Move → Bool) : List Move → Bool
  | [] => false
  | m :: past => found m past || anyMove found past

lemma exists_of_anyMove {found : Move → List Move → Bool} (h : anyMove found ms = true) :
    ∃ m past, m :: past <:+ ms ∧ found m past = true := by
  induction ms with
  | nil => cases h
  | cons m past ih =>
    rcases (Bool.or_eq_true _ _).mp h with hfound | hpast
    · exact ⟨m, past, List.suffix_rfl, hfound⟩
    · obtain ⟨m', past', hm', hfound⟩ := ih hpast
      exact ⟨m', past', hm'.trans (List.suffix_cons m past), hfound⟩

/-- Cycles are 7 seconds apart, and a tunnel is closed after 12 seconds without activity. -/
def watchful : Config where
  pollFrequency := .ofSeconds 7
  inactivityTimeout := .ofSeconds 12

/-- As `wanted`, with a tunnel that cannot be closed. -/
def wantedStubborn : Setup := { wanted with transport := { refusesClose := true } }

/-- The tunnel is opened after 7 seconds, and polling is stopped.  It is used once more while the
close that the check after 30 seconds calls for is in flight. -/
def usedMeanwhile : List Act :=
  [.start, .takeStart, .wait 7000, .tick, .answered, .takeReport, .wait 8000, .stop, .takeStop,
    .wait 30000, .check, .wait 45000, .reportActivity, .wait 50000, .reaperClosed, .takeReport,
    .wait 60000, .check]

/-- Whether a move is a check that finds the tunnel open, and last used at some instant. -/
def checksAt (instant use : Nat) (m : Move) (past : List Move) : Bool :=
  m.isCheck && m.before.tunnelIsOpen && m.instant == instant && lastUse past == some use

/-- A close takes 20 seconds and fails.  The use of the tunnel meanwhile counts from the end of the
close, so the check after 60 seconds leaves the tunnel open, and the one after 90 seconds has it
closed. -/
theorem closed_after_use : ∃ s₀ ms s,
    spawnWithSource watchful wantedStubborn { closeDelay := 20000 } = .ok s₀ ∧
    Run s₀ ms s ∧ Prompt ms ∧ Undisturbed ms ∧ ClosedInTime ms ∧ UsedApart ms ∧
      (∃ m past, m :: past <:+ ms ∧ m.act = .check ∧ m.before.tunnelIsOpen = true ∧
        m.instant = 60000 ∧ lastUse past = some 50000 ∧ .closeTunnel ∉ m.events) ∧
      ∃ m past, m :: past <:+ ms ∧ m.act = .check ∧ m.before.tunnelIsOpen = true ∧
        m.instant = 90000 ∧ lastUse past = some 50000 ∧ .closeTunnel ∈ m.events := by
  obtain ⟨s₀, ms, s, hs, hr, h⟩ := exists_run watchful wantedStubborn { closeDelay := 20000 }
    (usedMeanwhile ++ [.wait 90000, .check])
    (fun _ ms _ => decide (Prompt ms) && decide (Undisturbed ms) && decide (ClosedInTime ms) &&
      decide (UsedApart ms) && anyMove (checksAt 60000 50000) ms &&
        anyMove (checksAt 90000 50000) ms) (by decide +kernel)
  simp only [Bool.and_eq_true, decide_eq_true_eq] at h
  obtain ⟨⟨⟨⟨⟨hp, hu⟩, hd⟩, ha⟩, hleft⟩, hlast⟩ := h
  -- at each of the two checks, the time since the last use decides
  have hdecided : ∀ instant, anyMove (checksAt instant 50000) ms = true →
      ∃ m past, m :: past <:+ ms ∧ m.act = .check ∧ m.before.tunnelIsOpen = true ∧
        m.instant = instant ∧ lastUse past = some 50000 ∧
          (.closeTunnel ∈ m.events ↔
            watchful.inactivityTimeout.nanos ≤ (instant - 50000) * nanosPerMilli) := by
    intro instant hany
    obtain ⟨m, past, hsuffix, hfound⟩ := exists_of_anyMove hany
    simp only [checksAt, Bool.and_eq_true, beq_iff_eq] at hfound
    obtain ⟨⟨⟨hcheck, ho⟩, rfl⟩, huse⟩ := hfound
    have hact : m.act = .check := m.isCheck_iff.mp hcheck
    obtain ⟨-, hcloses, -⟩ := (Run.reaping hs rfl hr hp hu hd ha).1 m past hsuffix hact
    obtain ⟨use, huse', -, hiff⟩ := hcloses ho
    rw [huse] at huse'
    obtain rfl := Option.some.inj huse'
    exact ⟨m, past, hsuffix, hact, ho, rfl, huse, hiff⟩
  obtain ⟨m, past, hsuffix, hact, ho, hinstant, huse, hiff⟩ := hdecided 60000 hleft
  obtain ⟨m', past', hsuffix', hact', ho', hinstant', huse', hiff'⟩ := hdecided 90000 hlast
  refine ⟨s₀, ms, s, hs, hr, hp, hu, hd, ha, ?_, ?_⟩
  · exact ⟨m, past, hsuffix, hact, ho, hinstant, huse, hiff.not.mpr (by decide)⟩
  · exact ⟨m', past', hsuffix', hact', ho', hinstant', huse', hiff'.mpr (by decide)⟩

/-- Whether a move is a command or a report, or one of the ticks of the two loops. -/
def Move.isTimed (m : Move) : Bool :=
  match m.act with
  | .start | .stop | .reportActivity | .cancel | .tick | .check => true
  | _ => false

/-- No two commands, reports and ticks share an instant. -/
def TimedApart (ms : List Move) : Prop := ((ms.filter Move.isTimed).map Move.instant).Nodup

instance (ms : List Move) : Decidable (TimedApart ms) :=
  inferInstanceAs (Decidable ((ms.filter Move.isTimed).map Move.instant).Nodup)

/-- The tunnel is opened after 7 seconds, and polling is stopped.  The close that the check after
30 seconds calls for takes 40 seconds and fails; then the next check takes place at once. -/
def closingLate : List Act :=
  [.start, .takeStart, .wait 7000, .tick, .answered, .takeReport, .wait 8000, .stop, .takeStop,
    .wait 30000, .check, .wait 70000, .reaperClosed, .check]

/-- Although nothing is late, and no two commands, reports and ticks share an instant, a check that
has to wait for the end of a close leaves the grid; and although the last use of the tunnel was
made long enough ago, a check does not close it, if that use was made during a close. -/
theorem not_reaping :
    (¬ ∀ config setup world s₀ ms s, setup.transport.isOpen = false →
      spawnWithSource config setup world = .ok s₀ → Run s₀ ms s → Prompt ms → Undisturbed ms →
        TimedApart ms → ∀ m past, m :: past <:+ ms → m.act = .check →
          m.instant = world.now + checkMillis * (checks past + 1)) ∧
    (¬ ∀ config setup world s₀ ms s, setup.transport.isOpen = false →
      spawnWithSource config setup world = .ok s₀ → Run s₀ ms s → Prompt ms → Undisturbed ms →
        TimedApart ms → ∀ m past, m :: past <:+ ms → m.act = .check →
          m.before.tunnelIsOpen = true →
            ((.closeTunnel ∈ m.events) ↔ ∃ use, past.find? Move.uses = some use ∧
              config.inactivityTimeout.nanos ≤ (m.instant - use.instant) * nanosPerMilli)) := by
  constructor
  · intro hgrid
    obtain ⟨s₀, ms, s, hs, hr, h⟩ := exists_run watchful wantedStubborn { closeDelay := 40000 }
      closingLate (fun _ ms _ => decide (Prompt ms) && decide (Undisturbed ms) &&
        decide (TimedApart ms) && anyMove (fun m past =>
          m.isCheck && m.instant == 70000 && checks past == 1) ms) (by decide +kernel)
    simp only [Bool.and_eq_true, decide_eq_true_eq] at h
    obtain ⟨⟨⟨hp, hu⟩, hapart⟩, hlate⟩ := h
    obtain ⟨m, past, hsuffix, hfound⟩ := exists_of_anyMove hlate
    simp only [Bool.and_eq_true, beq_iff_eq] at hfound
    obtain ⟨⟨hcheck, hinstant⟩, hchecks⟩ := hfound
    have hnow := hgrid _ _ _ s₀ ms s rfl hs hr hp hu hapart m past hsuffix (m.isCheck_iff.mp hcheck)
    rw [hinstant, hchecks] at hnow
    cases hnow
  · intro hcloses
    obtain ⟨s₀, ms, s, hs, hr, h⟩ := exists_run watchful wantedStubborn { closeDelay := 20000 }
      usedMeanwhile (fun _ ms _ => decide (Prompt ms) && decide (Undisturbed ms) &&
        decide (TimedApart ms) && anyMove (fun m past =>
          m.isCheck && m.before.tunnelIsOpen && !m.callsClose && m.instant == 60000 &&
            (past.find? Move.uses).any (·.instant == 45000)) ms) (by decide +kernel)
    simp only [Bool.and_eq_true, decide_eq_true_eq] at h
    obtain ⟨⟨⟨hp, hu⟩, hapart⟩, hleft⟩ := h
    obtain ⟨m, past, hsuffix, hfound⟩ := exists_of_anyMove hleft
    simp only [Bool.and_eq_true, Bool.not_eq_true', beq_iff_eq] at hfound
    obtain ⟨⟨⟨⟨hcheck, ho⟩, hno⟩, hinstant⟩, hfind⟩ := hfound
    obtain ⟨use, huse, hused⟩ := (Option.any_eq_true _ _).mp hfind
    have hcalled := (hcloses _ _ _ s₀ ms s rfl hs hr hp hu hapart m past hsuffix
      (m.isCheck_iff.mp hcheck) ho).mpr ⟨use, huse, ?_⟩
    · rw [← Move.callsClose_iff, hno] at hcalled
      cases hcalled
    · rw [hinstant, eq_of_beq hused]
      decide

end Service

end CheckIn
