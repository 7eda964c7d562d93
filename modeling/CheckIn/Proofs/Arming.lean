/-
# Commands, and whether the poll loop is armed

A command is sent first and taken later, when the poll loop waits.  If nothing is late and
answers and closings take no time, then the poll loop is never busy while time passes
(`Run.onTime`), so a command that has not been taken was sent at this very instant.  From this it
follows that the poll loop does what the last command said (`Run.commanded`), as long as no two
commands share an instant; without that, which of two commands is taken last is not determined.
-/
import CheckIn.Proofs.CadenceAgreement
import Mathlib.Data.List.Basic

namespace CheckIn

namespace Service

/-- The command that a move sends: `true` to start and `false` to stop. -/
def Move.command (m : Move) : Option Bool :=
  match m.act with
  | .start => some true
  | .stop => some false
  | _ => none

/-- Whether a move tells the loops to end. -/
def Move.cancels (m : Move) : Bool :=
  match m.act with
  | .cancel => true
  | _ => false

/-- Whether the last command up to an instant is to start. -/
def armedAt (ms : List Move) (instant : Nat) : Bool :=
  (ms.findSome? fun m => if m.instant ≤ instant then m.command else none).getD false

/-- Whether the loops have been told to end up to an instant. -/
def shutDownAt (ms : List Move) (instant : Nat) : Bool :=
  ms.any fun m => m.cancels && decide (m.instant ≤ instant)

/-- Whether two moves must not share an instant: two commands, or a tick and a command after which
there are no ticks. -/
def Move.conflicts (m m' : Move) : Bool :=
  ((m.command.isSome || m.cancels) && (m'.command.isSome || m'.cancels)) ||
    (m.isTick && (m'.command == some false || m'.cancels)) ||
      (m'.isTick && (m.command == some false || m.cancels))

/-- No two commands share an instant, and no tick is taken at the instant of a command to stop or
to end. -/
def CommandsApart (ms : List Move) : Prop :=
  ms.Pairwise fun m m' => m.conflicts m' = true → m.instant ≠ m'.instant

instance (ms : List Move) : Decidable (CommandsApart ms) :=
  inferInstanceAs (Decidable (ms.Pairwise fun m m' => m.conflicts m' = true →
    m.instant ≠ m'.instant))

/-- Whether a move does not make the poll loop busy for some time. -/
def Move.isUndelayed (m : Move) : Bool :=
  match m.act with
  | .tick => m.before.source.next.2.1 == 0
  | .answered => m.before.world.closeDelay == 0
  | _ => true

/-- Answers and closings of a cycle take no time. -/
def Undelayed (ms : List Move) : Prop := ∀ m ∈ ms, m.isUndelayed = true

instance (ms : List Move) : Decidable (Undelayed ms) :=
  inferInstanceAs (Decidable (∀ m ∈ ms, m.isUndelayed = true))

variable {s₀ s s' : Service} {act : Act} {ms past : List Move} {m m' : Move}

lemma Undelayed.of_cons (h : Undelayed (m :: ms)) : Undelayed ms :=
  (List.forall_mem_cons.mp h).2

lemma Undelayed.of_suffix (h : Undelayed ms) (hm : past <:+ ms) : Undelayed past :=
  fun m' hm' => h m' (hm.subset hm')

lemma CommandsApart.of_cons (h : CommandsApart (m :: ms)) : CommandsApart ms :=
  (List.pairwise_cons.mp h).2

lemma CommandsApart.of_suffix (h : CommandsApart ms) (hm : past <:+ ms) : CommandsApart past :=
  List.Pairwise.sublist hm.sublist h

/-- An earlier move that conflicts with this one was at another instant. -/
lemma CommandsApart.instant_ne (h : CommandsApart (m :: ms)) (hm' : m' ∈ ms)
    (hconflict : m.conflicts m' = true) : m.instant ≠ m'.instant :=
  (List.pairwise_cons.mp h).1 m' hm' hconflict

/-! ## Busy -/

/-- When the poll loop will have done what it is busy with. -/
def busyUntil (s : Service) : Option Nat :=
  match s.phase with
  | .fetching done _ | .closing done _ => some done
  | .waiting | .ended => none

/-- The poll loop is never busy for later. -/
def OnTime (s : Service) : Prop := ∀ done, s.busyUntil = some done → done ≤ s.world.now

lemma OnTime.frame (ho : OnTime s) (hphase : s'.phase = s.phase)
    (hnow : s'.world.now = s.world.now) : OnTime s' := by
  intro done hbusy
  rw [hnow]
  refine ho done ?_
  rwa [busyUntil, hphase] at hbusy

/-- A poll loop that is busy, but not for later, has something to do. -/
lemma OnTime.busyUntil_eq_none (ho : OnTime s) (hmoves : s.pollMoves = []) :
    s.busyUntil = none := by
  cases hp : s.phase with
  | waiting => rw [busyUntil, hp]
  | ended => rw [busyUntil, hp]
  | fetching done answer =>
    have hdone : done ≤ s.world.now := ho done (by rw [busyUntil, hp])
    simp [pollMoves, hp, hdone] at hmoves
  | closing done response =>
    have hdone : done ≤ s.world.now := ho done (by rw [busyUntil, hp])
    simp [pollMoves, hp, hdone] at hmoves

lemma OnTime.step (ho : OnTime s) (h : Step s act s') (hp : Prompt (⟨s, act⟩ :: ms))
    (hd : Undelayed (⟨s, act⟩ :: ms)) : OnTime s' := by
  have hundelayed := hd _ List.mem_cons_self
  have hafter := h.eq_after
  cases h with
  | tick hw ha hdue =>
    have hdelay : s.source.next.2.1 = 0 := by simpa [Move.isUndelayed] using hundelayed
    rw [hafter]
    intro done hbusy
    have hdone : s.world.now + s.source.next.2.1 = done := Option.some.inj hbusy
    rw [← hdone, hdelay]
    exact Nat.le_refl _
  | @answered done answer hf hdone =>
    -- only an answer that has the tunnel closed leaves the poll loop busy
    have hdelay : s.world.closeDelay = 0 := by simpa [Move.isUndelayed] using hundelayed
    rw [hafter]
    intro finish hbusy
    cases answer with
    | error code =>
      have hphase : (s.after .answered).phase = .waiting := by
        simp [phaseAfter, hf, answerOutcome]
      rw [busyUntil, hphase] at hbusy
      cases hbusy
    | ok response =>
      have hphase : (s.after .answered).phase =
          if s.closesFor response then .closing (s.world.now + s.world.closeDelay) response
          else .waiting := by
        simp [phaseAfter, hf, phase_answerOutcome]
      cases hcloses : s.closesFor response with
      | true =>
        rw [busyUntil, hphase, hcloses] at hbusy
        have hdone : s.world.now + s.world.closeDelay = finish := Option.some.inj hbusy
        rw [← hdone, hdelay]
        exact Nat.le_refl _
      | false =>
        rw [busyUntil, hphase, hcloses] at hbusy
        cases hbusy
  | closed hc hdone =>
    rw [hafter]
    intro finish hbusy
    cases hbusy
  | endPolling hw hc =>
    intro finish hbusy
    cases hbusy
  | wait hlt =>
    intro done hbusy
    have hidle := ho.busyUntil_eq_none hp.pollMoves_eq_nil
    have hsame : s.busyUntil = some done := hbusy
    rw [hidle] at hsame
    cases hsame
  | outside change => cases change <;> exact ho.frame rfl rfl
  | _ =>
    rw [hafter]
    exact ho.frame rfl rfl

/-- If nothing takes time and nothing is late, the poll loop is not busy while time passes. -/
theorem Run.onTime {config : Config} {setup : Setup} {world : World}
    (hs : spawnWithSource config setup world = .ok s₀) (hr : Run s₀ ms s) (hp : Prompt ms)
    (hd : Undelayed ms) : OnTime s := by
  induction hr with
  | nil =>
    obtain ⟨cadence, -, rfl⟩ := exists_cadence_of_spawn hs
    intro done hbusy
    cases hbusy
  | cons _ h ih => exact (ih hp.of_cons hd.of_cons).step h hp hd

/-! ## What the last command was -/

/-- What the last command was to, and nothing at first. -/
def lastCommand (ms : List Move) : Option Bool := ms.findSome? Move.command

lemma lastCommand_cons (m : Move) (ms : List Move) :
    lastCommand (m :: ms) = m.command.or (lastCommand ms) := by
  cases h : m.command <;> simp [lastCommand, h]

/-- From the last move on, the loop is armed if the last command was to start. -/
lemma armedAt_of_le {instant : Nat} (h : ∀ m ∈ ms, m.instant ≤ instant) :
    armedAt ms instant = (lastCommand ms).getD false := by
  have heq : (ms.findSome? fun m => if m.instant ≤ instant then m.command else none) =
      ms.findSome? Move.command := by
    induction ms with
    | nil => rfl
    | cons m ms ih =>
      have hm : m.instant ≤ instant := h m List.mem_cons_self
      rw [List.findSome?_cons, List.findSome?_cons, if_pos hm,
        ih fun m' hm' => h m' (List.mem_cons_of_mem m hm')]
  rw [armedAt, heq]
  rfl

/-- A later move changes nothing of what was the case before it. -/
lemma armedAt_cons_of_lt {instant : Nat} (h : instant < m.instant) :
    armedAt (m :: ms) instant = armedAt ms instant := by
  simp [armedAt, Nat.not_le_of_lt h]

lemma shutDownAt_cons_of_lt {instant : Nat} (h : instant < m.instant) :
    shutDownAt (m :: ms) instant = shutDownAt ms instant := by
  simp [shutDownAt, Nat.not_le_of_lt h]

lemma shutDownAt_of_le {instant : Nat} (h : ∀ m ∈ ms, m.instant ≤ instant) :
    shutDownAt ms instant = ms.any Move.cancels := by
  induction ms with
  | nil => rfl
  | cons m ms ih =>
    have hm : m.instant ≤ instant := h m List.mem_cons_self
    have hms := ih fun m' hm' => h m' (List.mem_cons_of_mem m hm')
    rw [shutDownAt] at hms
    rw [shutDownAt, List.any_cons, List.any_cons, hms, decide_eq_true hm, Bool.and_true]

/-- What the poll loop has to do with the commands: those that wait to be taken were sent now,
and else it does what the last one said. -/
structure Commanded (ms : List Move) (s : Service) : Prop where
  ended : s.pollEnded = true → s.world.cancelled = true
  cancelled : s.world.cancelled = ms.any Move.cancels
  cancelledNow : s.world.cancelled = true → s.pollEnded = false →
    ∃ m ∈ ms, m.cancels = true ∧ m.instant = s.world.now
  start : s.pollEnded = false → s.startPending = true → lastCommand ms = some true ∧
    ∃ m ∈ ms, m.command = some true ∧ m.instant = s.world.now
  stop : s.pollEnded = false → s.stopPending = true → lastCommand ms = some false ∧
    ∃ m ∈ ms, m.command = some false ∧ m.instant = s.world.now
  taken : s.pollEnded = false → s.startPending = false → s.stopPending = false →
    s.armed = (lastCommand ms).getD false

/-- A move that is no command leaves the commands alone if it leaves alone what they set. -/
lemma Commanded.frame (hc : Commanded ms s) (hcommand : m.command = none)
    (hcancels : m.cancels = false) (hended : s'.pollEnded = s.pollEnded)
    (hcancelled : s'.world.cancelled = s.world.cancelled)
    (hstart : s'.startPending = s.startPending) (hstop : s'.stopPending = s.stopPending)
    (harmed : s'.armed = s.armed) (hnow : s'.world.now = s.world.now) :
    Commanded (m :: ms) s' := by
  have hlast : lastCommand (m :: ms) = lastCommand ms := by
    rw [lastCommand_cons, hcommand]
    rfl
  constructor
  · rw [hended, hcancelled]
    exact hc.ended
  · rw [hcancelled, List.any_cons, hcancels]
    exact hc.cancelled
  · rw [hended, hcancelled, hnow]
    intro hcancelled hended
    exact List.exists_mem_cons_of_exists (hc.cancelledNow hcancelled hended)
  · rw [hended, hstart, hnow, hlast]
    intro hended hstart
    obtain ⟨hlast, hnow⟩ := hc.start hended hstart
    exact ⟨hlast, List.exists_mem_cons_of_exists hnow⟩
  · rw [hended, hstop, hnow, hlast]
    intro hended hstop
    obtain ⟨hlast, hnow⟩ := hc.stop hended hstop
    exact ⟨hlast, List.exists_mem_cons_of_exists hnow⟩
  · rw [hended, hstart, hstop, harmed, hlast]
    exact hc.taken

/-- While a command is sent no other one waits to be taken. -/
lemma Commanded.not_pending (hc : Commanded ms s) (hapart : CommandsApart (⟨s, act⟩ :: ms))
    (hcommand : (Move.mk s act).command.isSome = true) (hended : s.pollEnded = false) :
    s.startPending = false ∧ s.stopPending = false := by
  -- a command that waits was sent at this instant, as this one is
  have hnone : ∀ m ∈ ms, m.command.isSome = true → m.instant ≠ s.world.now := by
    intro m hm hother hnow
    exact hapart.instant_ne hm (by simp [Move.conflicts, hcommand, hother]) hnow.symm
  constructor
  · by_contra hpending
    obtain ⟨-, m, hm, hother, hnow⟩ := hc.start hended (by simpa using hpending)
    exact hnone m hm (by rw [hother]; rfl) hnow
  · by_contra hpending
    obtain ⟨-, m, hm, hother, hnow⟩ := hc.stop hended (by simpa using hpending)
    exact hnone m hm (by rw [hother]; rfl) hnow

/-- A command that is sent waits to be taken, unless the poll loop has ended. -/
lemma Commanded.send (hc : Commanded ms s) {command : Bool}
    (hcommand : (Move.mk s act).command = some command) (hended : s'.pollEnded = s.pollEnded)
    (hcancelled : s'.world.cancelled = s.world.cancelled)
    (hpending : s.pollEnded = false → s'.startPending = command ∧ s'.stopPending = !command)
    (hnow : s'.world.now = s.world.now) : Commanded (⟨s, act⟩ :: ms) s' := by
  have hlast : lastCommand (⟨s, act⟩ :: ms) = some command := by
    rw [lastCommand_cons, hcommand]
    rfl
  have hcancels : (Move.mk s act).cancels = false := by
    cases act <;> first | rfl | cases hcommand
  constructor
  · rw [hended, hcancelled]
    exact hc.ended
  · rw [hcancelled, List.any_cons, hcancels]
    exact hc.cancelled
  · rw [hended, hcancelled, hnow]
    intro hcancelled hended
    exact List.exists_mem_cons_of_exists (hc.cancelledNow hcancelled hended)
  · rw [hended, hnow]
    intro hended hstart
    rw [(hpending hended).1] at hstart
    rw [hstart] at hlast hcommand
    exact ⟨hlast, _, List.mem_cons_self, hcommand, rfl⟩
  · rw [hended, hnow]
    intro hended hstop
    rw [(hpending hended).2, Bool.not_eq_true'] at hstop
    rw [hstop] at hlast hcommand
    exact ⟨hlast, _, List.mem_cons_self, hcommand, rfl⟩
  · rw [hended]
    intro hended hstart hstop
    rw [(hpending hended).1] at hstart
    rw [(hpending hended).2, hstart] at hstop
    cases hstop

lemma pollEnded_eq_false (h : s.phase ≠ .ended) : s.pollEnded = false := by
  cases hp : s.phase with
  | ended => exact absurd hp h
  | _ => rw [pollEnded, hp]

/-- While nothing is late, commands are taken before time passes. -/
lemma Commanded.step (hc : Commanded ms s) (h : Step s act s') (ho : OnTime s)
    (hp : Prompt (⟨s, act⟩ :: ms)) (hapart : CommandsApart (⟨s, act⟩ :: ms)) :
    Commanded (⟨s, act⟩ :: ms) s' := by
  have hafter := h.eq_after
  cases h with
  | start hroom =>
    rw [hafter]
    refine hc.send rfl rfl rfl (fun hended => ?_) rfl
    have hpending : (s.after .start).startPending = true := by
      simp [after, startPendingAfter, hended]
    exact ⟨hpending, (hc.not_pending hapart rfl hended).2⟩
  | stop hroom =>
    rw [hafter]
    refine hc.send rfl rfl rfl (fun hended => ?_) rfl
    have hpending : (s.after .stop).stopPending = true := by
      simp [after, stopPendingAfter, hended]
    exact ⟨(hc.not_pending hapart rfl hended).1, hpending⟩
  | cancel =>
    constructor
    · exact fun _ => rfl
    · rfl
    · exact fun _ _ => ⟨_, List.mem_cons_self, rfl, rfl⟩
    · intro hended hstart
      obtain ⟨hlast, hnow⟩ := hc.start hended hstart
      exact ⟨hlast, List.exists_mem_cons_of_exists hnow⟩
    · intro hended hstop
      obtain ⟨hlast, hnow⟩ := hc.stop hended hstop
      exact ⟨hlast, List.exists_mem_cons_of_exists hnow⟩
    · exact hc.taken
  | takeStart hw hpending =>
    -- what is taken is the last command, which from now on is done
    have hended : s.pollEnded = false := pollEnded_eq_false (by simp [hw])
    obtain ⟨hlast, -⟩ := hc.start hended hpending
    refine ⟨hc.ended, hc.cancelled, ?_, ?_, ?_, ?_⟩
    · intro hcancelled hended
      exact List.exists_mem_cons_of_exists (hc.cancelledNow hcancelled hended)
    · intro _ hstart
      cases hstart
    · intro hended hstop
      obtain ⟨hlast, hnow⟩ := hc.stop hended hstop
      exact ⟨hlast, List.exists_mem_cons_of_exists hnow⟩
    · intro _ _ _
      have hsame : lastCommand (⟨s, .takeStart⟩ :: ms) = lastCommand ms := lastCommand_cons _ ms
      rw [hsame, hlast]
      rfl
  | takeStop hw hpending =>
    have hended : s.pollEnded = false := pollEnded_eq_false (by simp [hw])
    obtain ⟨hlast, -⟩ := hc.stop hended hpending
    refine ⟨hc.ended, hc.cancelled, ?_, ?_, ?_, ?_⟩
    · intro hcancelled hended
      exact List.exists_mem_cons_of_exists (hc.cancelledNow hcancelled hended)
    · intro hended hstart
      obtain ⟨hlast, hnow⟩ := hc.start hended hstart
      exact ⟨hlast, List.exists_mem_cons_of_exists hnow⟩
    · intro _ hstop
      cases hstop
    · intro _ _ _
      have hsame : lastCommand (⟨s, .takeStop⟩ :: ms) = lastCommand ms := lastCommand_cons _ ms
      rw [hsame, hlast]
      rfl
  | endPolling hw hcancelled =>
    refine ⟨fun _ => hcancelled, hc.cancelled, ?_, ?_, ?_, ?_⟩
    · intro _ hended
      cases hended
    · intro hended
      cases hended
    · intro hended
      cases hended
    · intro hended
      cases hended
  | tick hw ha hdue =>
    have hended : s.pollEnded = false := pollEnded_eq_false (by simp [hw])
    rw [hafter]
    exact hc.frame rfl rfl hended.symm rfl rfl rfl rfl rfl
  | @answered done answer hf hdone =>
    have hended : s.pollEnded = false := pollEnded_eq_false (by simp [hf])
    have hended' : (s.after .answered).pollEnded = false := by
      refine pollEnded_eq_false ?_
      cases answer with
      | error code => simp [phaseAfter, hf, answerOutcome]
      | ok response =>
        simp only [phase_after, phaseAfter, hf, phase_answerOutcome]
        split <;> simp
    rw [hafter]
    exact hc.frame rfl rfl (hended'.trans hended.symm) rfl rfl rfl rfl rfl
  | closed hf hdone =>
    have hended : s.pollEnded = false := pollEnded_eq_false (by simp [hf])
    rw [hafter]
    exact hc.frame rfl rfl hended.symm rfl rfl rfl rfl rfl
  | wait hlt =>
    -- a poll loop that has not ended waits, with nothing to take
    have hnothing : s.pollEnded = false →
        s.startPending = false ∧ s.stopPending = false ∧ s.world.cancelled = false := by
      intro hended
      have hidle := ho.busyUntil_eq_none hp.pollMoves_eq_nil
      have hmoves := hp.pollMoves_eq_nil
      cases hw : s.phase with
      | ended =>
        rw [pollEnded, hw] at hended
        cases hended
      | waiting =>
        simp only [pollMoves, hw, List.append_eq_nil_iff, ite_eq_right_iff, List.cons_ne_nil,
          imp_false, Bool.not_eq_true] at hmoves
        exact ⟨hmoves.1.1.1, hmoves.1.1.2, hmoves.1.2⟩
      | _ =>
        rw [busyUntil, hw] at hidle
        cases hidle
    have hsame : ∀ instant, lastCommand (⟨s, .wait instant⟩ :: ms) = lastCommand ms :=
      fun instant => lastCommand_cons _ ms
    refine ⟨hc.ended, hc.cancelled, ?_, ?_, ?_, hc.taken⟩
    · intro hcancelled hended
      exact absurd ((hnothing hended).2.2.symm.trans hcancelled) Bool.false_ne_true
    · intro hended hstart
      exact absurd ((hnothing hended).1.symm.trans hstart) Bool.false_ne_true
    · intro hended hstop
      exact absurd ((hnothing hended).2.1.symm.trans hstop) Bool.false_ne_true
  | outside change => cases change <;> exact hc.frame rfl rfl rfl rfl rfl rfl rfl rfl
  | _ =>
    rw [hafter]
    exact hc.frame rfl rfl rfl rfl rfl rfl rfl rfl

/-- In a run in which nothing takes time and nothing is late, and no two commands share an
instant, the poll loop does what the last command said. -/
theorem Run.commanded {config : Config} {setup : Setup} {world : World}
    (hs : spawnWithSource config setup world = .ok s₀) (hr : Run s₀ ms s) (hp : Prompt ms)
    (hd : Undelayed ms) (hapart : CommandsApart ms) : Commanded ms s := by
  induction hr with
  | nil =>
    obtain ⟨cadence, -, rfl⟩ := exists_cadence_of_spawn hs
    constructor
    · intro hended
      cases hended
    · rfl
    · intro hcancelled
      cases hcancelled
    · intro _ hstart
      cases hstart
    · intro _ hstop
      cases hstop
    · exact fun _ _ _ => rfl
  | cons hr h ih =>
    have ho := hr.onTime hs hp.of_cons hd.of_cons
    exact (ih hp.of_cons hd.of_cons hapart.of_cons).step h ho hp hapart

/-- A poll loop that has nothing to do is told to wait, or told to end, or waits for its ticker. -/
lemma Commanded.idle (hc : Commanded ms s) (ho : OnTime s) (hmoves : s.pollMoves = []) :
    (lastCommand ms).getD false = false ∨ ms.any Move.cancels = true ∨
      s.pollWake = some s.cadence.ticker.dueAt ∧ s.cadence.ticker.isDue s.world.now = false := by
  have hidle := ho.busyUntil_eq_none hmoves
  cases hw : s.phase with
  | fetching | closing =>
    rw [busyUntil, hw] at hidle
    cases hidle
  | ended =>
    have hended : s.pollEnded = true := by rw [pollEnded, hw]
    exact .inr (.inl (hc.cancelled ▸ hc.ended hended))
  | waiting =>
    have hended : s.pollEnded = false := pollEnded_eq_false (by simp [hw])
    simp only [pollMoves, hw, List.append_eq_nil_iff, ite_eq_right_iff, List.cons_ne_nil,
      imp_false, Bool.not_eq_true, Bool.and_eq_false_iff] at hmoves
    obtain ⟨⟨⟨hstart, hstop⟩, -⟩, htick⟩ := hmoves
    have harmed := hc.taken hended hstart hstop
    rcases htick with hdisarmed | hdue
    · exact .inl (harmed.symm.trans hdisarmed)
    · cases ha : s.armed with
      | false => exact .inl (harmed.symm.trans ha)
      | true =>
        refine .inr (.inr ⟨?_, hdue⟩)
        rw [pollWake, hw]
        exact if_pos ha

end Service

end CheckIn
