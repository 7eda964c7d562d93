/-
# Redundant commands

A command to start that is sent while the poll loop takes ticks, or to stop while it takes none,
is redundant.  It is taken like every other command, but it touches neither the cadence nor the
reaper nor the tunnel: with redundant commands inserted, a run goes on as it did without them, and
its journal has only their own records more, of which a command to stop makes one
(`Run.redundant_commands_unseen`).

What can be seen of a redundant command is that it waits.  A command that is sent during a cycle is
taken after it.  Until then the caller of the next command of this kind waits as well, so that all
that this caller does comes later (`not_unseen`); and which of two commands of different kinds is
taken last is not determined.  Hence an inserted command has to wait alone: no command waits when
it is sent, and none is sent before it is taken.

A run with inserted commands is compared with the plain run act by act.  The two services are
always the same but for the command that waits and for the journal (`withWaiting`).
-/
import CheckIn.Proofs.Execution
import CheckIn.Proofs.TunnelBlind

namespace CheckIn

namespace Service

variable {s₀ s t : Service} {act : Act} {acts padded : List Act} {waiting : Option Bool}
  {command : Bool} {ms ms' : List Move} {added before : List (Nat × Event)}

/-! ## Runs and their acts -/

/-- The acts of a run, the first one first. -/
def actsOf (ms : List Move) : List Act := (ms.map Move.act).reverse

lemma actsOf_cons (m : Move) (ms : List Move) : actsOf (m :: ms) = actsOf ms ++ [m.act] := by
  simp [actsOf]

lemma perform_cons (h : Step s act t) :
    perform s ms (act :: acts) = perform t (⟨s, act⟩ :: ms) acts := by
  obtain ⟨hcan, rfl⟩ := step_iff.mp h
  rw [perform_cons_eq_ite, if_pos hcan]

lemma perform_actsOf (hr : Run s₀ ms s) (acts : List Act) :
    s₀.perform [] (actsOf ms ++ acts) = s.perform ms acts := by
  induction hr generalizing acts with
  | nil => rfl
  | @cons ms s s' act hr h ih =>
    rw [actsOf_cons, List.append_assoc, ih, List.singleton_append, perform_cons h]

lemma actsOf_of_perform {later : List Move} {s' : Service}
    (h : s.perform ms acts = some (later, s')) : actsOf later = actsOf ms ++ acts := by
  induction acts generalizing s ms with
  | nil =>
    obtain ⟨rfl, rfl⟩ := Prod.mk.inj (Option.some.inj h)
    simp
  | cons act acts ih =>
    rw [perform_cons_eq_ite] at h
    split at h
    · rw [ih h, actsOf_cons, List.append_assoc, List.singleton_append]
    · cases h

/-- A run of these acts is what is performed. -/
lemma perform_eq_some_iff :
    s₀.perform [] acts = some (ms, s) ↔ Run s₀ ms s ∧ actsOf ms = acts := by
  constructor
  · intro h
    exact ⟨run_of_perform .nil h, by simpa [actsOf] using actsOf_of_perform h⟩
  · rintro ⟨hr, rfl⟩
    simpa [perform_nil] using perform_actsOf hr []

/-! ## Inserted commands -/

/-- A command is sent: `true` to start and `false` to stop. -/
def Act.send : Bool → Act
  | true => .start
  | false => .stop

/-- A command is taken. -/
def Act.take : Bool → Act
  | true => .takeStart
  | false => .takeStop

lemma Act.send_ne_wait (command : Bool) (instant : Nat) : Act.send command ≠ .wait instant := by
  cases command <;> simp [Act.send]

lemma Act.take_ne_wait (command : Bool) (instant : Nat) : Act.take command ≠ .wait instant := by
  cases command <;> simp [Act.take]

/-- Whether an act has to do with commands. -/
def Act.concernsCommands : Act → Bool
  | .start | .stop | .takeStart | .takeStop => true
  | _ => false

/-- What is written when a command is taken. -/
def takenRecords : Bool → List LogRecord
  | true => []
  | false => [.pollingStopped]

/-- What is written when a command is sent to a poll loop that has ended. -/
def ignoredRecords : Bool → List LogRecord
  | true => [.startIgnored]
  | false => [.stopIgnored]

/-- Entries of the journal for records that are written now. -/
def entries (s : Service) (records : List LogRecord) : List (Nat × Event) :=
  records.map (s.world.now, .log ·)

/-- A poll loop that does what this command says already, and has no other command to take. -/
structure Redundant (s : Service) (command : Bool) : Prop where
  armed : s.armed = command
  startPending : s.startPending = false
  stopPending : s.stopPending = false

lemma redundant_iff : Redundant s command ↔
    s.armed = command ∧ s.startPending = false ∧ s.stopPending = false :=
  ⟨fun ⟨harmed, hstart, hstop⟩ => ⟨harmed, hstart, hstop⟩,
    fun ⟨harmed, hstart, hstop⟩ => ⟨harmed, hstart, hstop⟩⟩

instance : Decidable (Redundant s command) := decidable_of_iff _ redundant_iff.symm

/-- The acts of a service, interspersed with redundant commands: the service itself, the inserted
command that waits to be taken, the acts without and with the inserted commands, and what these
add to the journal.  After the end of the poll loop every command is redundant. -/
inductive Interspersed :
    Service → Option Bool → List Act → List Act → List (Nat × Event) → Prop
  | done {s : Service} {waiting : Option Bool} : Interspersed s waiting [] [] []
  /-- While an inserted command waits for the poll loop, no other one is sent or taken. -/
  | kept {s : Service} {waiting : Option Bool} {act : Act} {acts padded : List Act}
      {added : List (Nat × Event)}
      (hapart : waiting = none ∨ s.pollEnded = true ∨ act.concernsCommands = false)
      (h : Interspersed (s.after act) waiting acts padded added) :
      Interspersed s waiting (act :: acts) (act :: padded) added
  | sent {s : Service} (command : Bool) {acts padded : List Act} {added : List (Nat × Event)}
      (hended : s.pollEnded = false) (hredundant : Redundant s command)
      (h : Interspersed s (some command) acts padded added) :
      Interspersed s none acts (.send command :: padded) added
  | taken {s : Service} (command : Bool) {acts padded : List Act} {added : List (Nat × Event)}
      (hw : s.isWaiting = true) (h : Interspersed s none acts padded added) :
      Interspersed s (some command) acts (.take command :: padded)
        (added ++ s.entries (takenRecords command))
  | ignored {s : Service} {waiting : Option Bool} (command : Bool) {acts padded : List Act}
      {added : List (Nat × Event)} (hended : s.pollEnded = true)
      (h : Interspersed s waiting acts padded added) :
      Interspersed s waiting acts (.send command :: padded)
        (added ++ s.entries (ignoredRecords command))

/-- Inserted commands add nothing to the journal but records of level DEBUG. -/
lemma Interspersed.debug (h : Interspersed s waiting acts padded added) :
    ∀ entry ∈ added, ∃ record, entry.2 = .log record ∧ record.level = .debug := by
  have hentries : ∀ {s : Service} {records : List LogRecord} {added : List (Nat × Event)},
      (∀ record ∈ records, record.level = .debug) →
      (∀ entry ∈ added, ∃ record, entry.2 = .log record ∧ record.level = .debug) →
      ∀ entry ∈ added ++ s.entries records,
        ∃ record, entry.2 = .log record ∧ record.level = .debug := by
    intro s records added hrecords hadded entry hmem
    rcases List.mem_append.mp hmem with hmem | hmem
    · exact hadded entry hmem
    · obtain ⟨record, hrecord, rfl⟩ := List.mem_map.mp hmem
      exact ⟨record, rfl, hrecords record hrecord⟩
  induction h with
  | done =>
    intro entry hmem
    cases hmem
  | kept _ _ ih => exact ih
  | sent _ _ _ _ ih => exact ih
  | taken command _ _ ih =>
    refine hentries ?_ ih
    cases command <;> simp [takenRecords, LogRecord.level]
  | ignored command _ _ ih =>
    refine hentries ?_ ih
    cases command <;> simp [ignoredRecords, LogRecord.level]

/-- Several acts of the plain run. -/
lemma Interspersed.kept_all (kept : List Act)
    (hapart : waiting = none ∨ ∀ act ∈ kept, act.concernsCommands = false)
    (h : Interspersed (kept.foldl Service.after s) waiting acts padded added) :
    Interspersed s waiting (kept ++ acts) (kept ++ padded) added := by
  induction kept generalizing s with
  | nil => exact h
  | cons act kept ih =>
    refine .kept ?_ (ih ?_ h)
    · exact hapart.imp_right fun hkept => .inr (hkept act List.mem_cons_self)
    · exact hapart.imp_right fun hkept act hact => hkept act (List.mem_cons_of_mem _ hact)

/-! ## A service with an inserted command -/

/-- The service with an inserted command that waits, and with another journal. -/
def withWaiting (s : Service) (waiting : Option Bool) (journal : List (Nat × Event)) : Service :=
  match waiting with
  | none => { s with world := { s.world with journal } }
  | some command =>
    { s with
      startPending := command, stopPending := !command, world := { s.world with journal } }

variable {journal : List (Nat × Event)}

lemma pollEnded_withWaiting : (s.withWaiting waiting journal).pollEnded = s.pollEnded := by
  cases waiting <;> rfl

lemma isWaiting_withWaiting : (s.withWaiting waiting journal).isWaiting = s.isWaiting := by
  cases waiting <;> rfl

lemma isWaiting_of_pollEnded (hended : s.pollEnded = true) : s.isWaiting = false := by
  cases hp : s.phase <;> simp [pollEnded, isWaiting, hp] at hended ⊢

/-- An act that has nothing to do with commands can happen whatever waits. -/
lemma can_withWaiting_of_not_concerns (hact : act.concernsCommands = false) :
    (s.withWaiting waiting journal).can act = s.can act := by
  cases act with
  | start | stop | takeStart | takeStop => cases hact
  | _ => cases waiting <;> rfl

lemma after_withWaiting_of_not_concerns (hact : act.concernsCommands = false) :
    (s.withWaiting waiting journal).after act = (s.after act).withWaiting waiting
      (((s.eventsOf act).map (s.world.now, ·)).reverse ++ journal) := by
  cases act with
  | start | stop | takeStart | takeStop => cases hact
  | outside change => cases waiting <;> cases change <;> rfl
  | _ => cases waiting <;> rfl

/-- An act of the plain run can happen beside an inserted command if it can happen without. -/
lemma can_withWaiting
    (hapart : waiting = none ∨ s.pollEnded = true ∨ act.concernsCommands = false) :
    (s.withWaiting waiting journal).can act = s.can act := by
  cases hact : act.concernsCommands with
  | false => exact can_withWaiting_of_not_concerns hact
  | true =>
    rcases hapart with rfl | hended | hfalse
    · cases act <;> rfl
    · -- a poll loop that has ended ignores what is sent to it
      cases act with
      | start | stop => simp [Service.can, pollEnded_withWaiting, hended]
      | takeStart | takeStop =>
        simp [Service.can, isWaiting_withWaiting, isWaiting_of_pollEnded hended]
      | _ => cases hact
    · cases hact.symm.trans hfalse

/-- An act of the plain run does beside an inserted command what it does without. -/
lemma after_withWaiting
    (hapart : waiting = none ∨ s.pollEnded = true ∨ act.concernsCommands = false)
    (hcan : s.can act = true) :
    (s.withWaiting waiting journal).after act = (s.after act).withWaiting waiting
      (((s.eventsOf act).map (s.world.now, ·)).reverse ++ journal) := by
  cases hact : act.concernsCommands with
  | false => exact after_withWaiting_of_not_concerns hact
  | true =>
    rcases hapart with rfl | hended | hfalse
    · cases act with
      | outside change => cases hact
      | _ => rfl
    · cases act with
      | start | stop =>
        simp only [Service.after, startPendingAfter, stopPendingAfter, pollEnded_withWaiting,
          hended]
        cases waiting <;> rfl
      | takeStart | takeStop => simp [Service.can, isWaiting_of_pollEnded hended] at hcan
      | _ => cases hact
    · cases hact.symm.trans hfalse

/-- A command that is redundant is so after an act of the plain run. -/
lemma Redundant.after (hr : Redundant s command)
    (hapart : s.pollEnded = true ∨ act.concernsCommands = false) (hcan : s.can act = true) :
    Redundant (s.after act) command := by
  obtain ⟨harmed, hstart, hstop⟩ := hr
  cases act with
  | start | stop =>
    have hended : s.pollEnded = true := hapart.resolve_right (by simp [Act.concernsCommands])
    constructor <;> simp [Service.after, startPendingAfter, stopPendingAfter, *]
  | takeStart | takeStop => simp [Service.can, hstart, hstop] at hcan
  | _ => exact ⟨harmed, hstart, hstop⟩

lemma redundant_after (hr : ∀ command ∈ waiting, Redundant s command)
    (hapart : waiting = none ∨ s.pollEnded = true ∨ act.concernsCommands = false)
    (hcan : s.can act = true) : ∀ command ∈ waiting, Redundant (s.after act) command := by
  intro command hmem
  have hwaits : waiting ≠ none := by
    rintro rfl
    cases hmem
  exact (hr command hmem).after (hapart.resolve_left hwaits) hcan

/-- To send a redundant command changes only what waits. -/
lemma step_send (hended : s.pollEnded = false) (hr : Redundant s command) :
    Step (s.withWaiting none journal) (.send command) (s.withWaiting (some command) journal) := by
  obtain ⟨-, hstart, hstop⟩ := hr
  have hended' : (s.withWaiting none journal).pollEnded = false := hended
  cases command with
  | true =>
    have h : Step (s.withWaiting none journal) .start _ := .start fun hp => by
      cases hstart.symm.trans hp
    have hsent : (s.withWaiting none journal).sendStart = s.withWaiting (some true) journal := by
      rw [sendStart, if_neg (Bool.eq_false_iff.mp hended')]
      simp [withWaiting, hstop]
    exact hsent ▸ h
  | false =>
    have h : Step (s.withWaiting none journal) .stop _ := .stop fun hp => by
      cases hstop.symm.trans hp
    have hsent : (s.withWaiting none journal).sendStop = s.withWaiting (some false) journal := by
      rw [sendStop, if_neg (Bool.eq_false_iff.mp hended')]
      simp [withWaiting, hstart]
    exact hsent ▸ h

/-- To take a redundant command leaves the service as it would be without. -/
lemma step_take (hw : s.isWaiting = true) (hr : Redundant s command) :
    Step (s.withWaiting (some command) journal) (.take command)
      (s.withWaiting none (s.entries (takenRecords command) ++ journal)) := by
  obtain ⟨harmed, hstart, hstop⟩ := hr
  have hw' : (s.withWaiting (some command) journal).phase = .waiting := isWaiting_iff.mp hw
  cases command with
  | true =>
    have htaken : (s.withWaiting (some true) journal).takeStart =
        s.withWaiting none journal := by
      simp [takeStart, withWaiting, harmed, hstart, hstop]
    exact htaken ▸ .takeStart hw' rfl
  | false =>
    have htaken : (s.withWaiting (some false) journal).takeStop =
        s.withWaiting none ((s.world.now, .log .pollingStopped) :: journal) := by
      simp [takeStop, withWaiting, harmed, hstart, hstop, World.note, World.emit]
    exact htaken ▸ .takeStop hw' rfl

/-- To send a command to a poll loop that has ended adds a record. -/
lemma step_ignored (hended : s.pollEnded = true) :
    Step (s.withWaiting waiting journal) (.send command)
      (s.withWaiting waiting (s.entries (ignoredRecords command) ++ journal)) := by
  have hended' : (s.withWaiting waiting journal).pollEnded = true :=
    pollEnded_withWaiting.trans hended
  cases command with
  | true =>
    have hsent : (s.withWaiting waiting journal).sendStart =
        s.withWaiting waiting ((s.world.now, .log .startIgnored) :: journal) := by
      rw [sendStart, if_pos hended']
      cases waiting <;> rfl
    exact hsent ▸ .start fun _ => hended'
  | false =>
    have hsent : (s.withWaiting waiting journal).sendStop =
        s.withWaiting waiting ((s.world.now, .log .stopIgnored) :: journal) := by
      rw [sendStop, if_pos hended']
      cases waiting <;> rfl
    exact hsent ▸ .stop fun _ => hended'

/-! ## Nothing is late -/

/-- Whether a command waits although the poll loop could take it. -/
def overlooks (s : Service) : Bool := s.isWaiting && (s.startPending || s.stopPending)

/-- Whether no command is overlooked while time passes. -/
def Move.heeds (m : Move) : Bool :=
  match m.act with
  | .wait _ => !m.before.overlooks
  | _ => true

/-- The poll loop takes each command before time goes on, unless it is busy. -/
def Heeded (ms : List Move) : Prop := ∀ m ∈ ms, m.heeds = true

instance : Decidable (Heeded ms) := inferInstanceAs (Decidable (∀ m ∈ ms, m.heeds = true))

/-- Beside an inserted command the poll loop has nothing to do if it has nothing to do without,
and does not overlook the command. -/
lemma pollMoves_withWaiting (hr : ∀ command ∈ waiting, Redundant s command) :
    (s.withWaiting waiting journal).pollMoves = [] ↔
      s.pollMoves = [] ∧ (s.withWaiting waiting journal).overlooks = false := by
  cases waiting with
  | none =>
    cases hp : s.phase <;> simp [pollMoves, overlooks, withWaiting, isWaiting, hp]
    tauto
  | some command =>
    obtain ⟨-, hstart, hstop⟩ := hr command rfl
    cases hp : s.phase <;> cases command <;>
      simp [pollMoves, overlooks, withWaiting, isWaiting, hp, hstart, hstop]

/-- An inserted command gives the reaper nothing to do. -/
lemma moves_withWaiting :
    (s.withWaiting waiting journal).reaper.moves (s.withWaiting waiting journal).world = [] ↔
      s.reaper.moves s.world = [] := by
  rw [moves_eq_nil_iff, moves_eq_nil_iff]
  have hcan : ∀ act : Act, act.isReaping = true →
      (s.withWaiting waiting journal).can act = s.can act := by
    intro act hact
    refine can_withWaiting_of_not_concerns ?_
    cases act <;> first | rfl | cases hact
  constructor
  · intro h act hact
    exact (hcan act hact).symm.trans (h act hact)
  · intro h act hact
    exact (hcan act hact).trans (h act hact)

/-- What is late beside an inserted command is late without it, or the command itself is. -/
lemma isPrompt_withWaiting (hr : ∀ command ∈ waiting, Redundant s command) :
    (Move.mk (s.withWaiting waiting journal) act).isPrompt =
      ((Move.mk s act).isPrompt && (Move.mk (s.withWaiting waiting journal) act).heeds) := by
  cases act with
  | wait instant =>
    have hwake : process.wake (s.withWaiting waiting journal) = process.wake s := by
      cases waiting <;> rfl
    rw [Bool.eq_iff_iff]
    simp only [Move.isPrompt, Move.heeds, restsUntil, hwake, Bool.and_eq_true, List.isEmpty_iff,
      pollMoves_withWaiting hr, moves_withWaiting, Bool.not_eq_true']
    tauto
  | _ => rfl

/-! ## The two runs -/

/-- What holds of a run that has led to `s`, and of one with inserted commands that has led to the
same service but for a command that waits and for the journal. -/
structure Covers (waiting : Option Bool) (added : List (Nat × Event)) (ms : List Move)
    (s : Service) (ms' : List Move) (journal : List (Nat × Event)) : Prop where
  redundant : ∀ command ∈ waiting, Redundant s command
  /-- All that is in the journal of the plain run is in the other one, in this order. -/
  kept : s.world.journal.Sublist journal
  added : journal.Perm (added ++ s.world.journal)
  prompt : Prompt ms' ↔ Prompt ms ∧ Heeded ms'

lemma prompt_cons {m : Move} : Prompt (m :: ms) ↔ m.isPrompt = true ∧ Prompt ms :=
  List.forall_mem_cons

lemma heeded_cons {m : Move} : Heeded (m :: ms) ↔ m.heeds = true ∧ Heeded ms :=
  List.forall_mem_cons

/-- A run covers itself. -/
lemma covers_self (s : Service) : Covers none [] [] s [] s.world.journal where
  redundant := by simp
  kept := List.Sublist.refl _
  added := List.Perm.refl _
  prompt := by simp [Prompt, Heeded]

/-- An act of the plain run. -/
lemma Covers.keep (hc : Covers waiting before ms s ms' journal)
    (hapart : waiting = none ∨ s.pollEnded = true ∨ act.concernsCommands = false)
    (hcan : s.can act = true) :
    Covers waiting before (⟨s, act⟩ :: ms) (s.after act)
      (⟨s.withWaiting waiting journal, act⟩ :: ms')
      (((s.eventsOf act).map (s.world.now, ·)).reverse ++ journal) where
  redundant := redundant_after hc.redundant hapart hcan
  kept := (List.Sublist.refl _).append hc.kept
  added := by
    rw [journal_after]
    exact (hc.added.append_left _).trans (List.perm_append_comm_assoc _ _ _)
  prompt := by
    rw [prompt_cons, prompt_cons, heeded_cons, hc.prompt, isPrompt_withWaiting hc.redundant,
      Bool.and_eq_true]
    tauto

/-- An act of an inserted command, which adds these entries to the journal. -/
lemma Covers.insert {after : Option Bool} (entries : List (Nat × Event))
    (hc : Covers waiting before ms s ms' journal)
    (hr : ∀ command ∈ after, Redundant s command) (hact : ∀ instant, act ≠ .wait instant) :
    Covers after (entries ++ before) ms s (⟨s.withWaiting waiting journal, act⟩ :: ms')
      (entries ++ journal) where
  redundant := hr
  kept := hc.kept.trans (List.sublist_append_right _ _)
  added := by
    rw [List.append_assoc]
    exact hc.added.append_left entries
  prompt := by
    have htimely : (Move.mk (s.withWaiting waiting journal) act).isPrompt = true ∧
        (Move.mk (s.withWaiting waiting journal) act).heeds = true := by
      cases act with
      | wait instant => exact absurd rfl (hact instant)
      | _ => exact ⟨rfl, rfl⟩
    simp [prompt_cons, heeded_cons, htimely, hc.prompt]

/-- The acts of a service can be done with redundant commands inserted if and only if they can be
done without, and then the one run covers the other. -/
lemma Interspersed.perform (h : Interspersed s waiting acts padded added)
    (hc : Covers waiting before ms s ms' journal) :
    Option.Rel (fun r r' => ∃ waiting journal, r'.2 = r.2.withWaiting waiting journal ∧
        Covers waiting (added ++ before) r.1 r.2 r'.1 journal)
      (s.perform ms acts) ((s.withWaiting waiting journal).perform ms' padded) := by
  -- an act of the plain run happens on both sides, one of an inserted command only on the right
  induction h generalizing before ms ms' journal with
  | done => exact .some ⟨_, _, rfl, hc⟩
  | @kept s waiting act acts padded added hapart h ih =>
    rw [perform_cons_eq_ite, perform_cons_eq_ite, can_withWaiting hapart]
    cases hcan : s.can act with
    | false => exact .none
    | true =>
      rw [if_pos rfl, if_pos rfl, after_withWaiting hapart hcan]
      exact ih (hc.keep hapart hcan)
  | @sent s command acts padded added hended hredundant h ih =>
    rw [perform_cons (step_send hended hredundant)]
    refine ih (hc.insert [] ?_ (Act.send_ne_wait command))
    rintro _ ⟨rfl⟩
    exact hredundant
  | @taken s command acts padded added hw h ih =>
    rw [perform_cons (step_take hw (hc.redundant command rfl)), List.append_assoc]
    exact ih (hc.insert _ (by simp) (Act.take_ne_wait command))
  | @ignored s waiting command acts padded added hended h ih =>
    rw [perform_cons (step_ignored hended), List.append_assoc]
    exact ih (hc.insert _ hc.redundant (Act.send_ne_wait command))

/-- What can happen next, other than that a command is sent, is an act of the plain run, or the
inserted command is taken. -/
lemma exists_interspersed_of_can (hcan : (s.withWaiting waiting journal).can act = true)
    (hact : ∀ command, act ≠ .send command) :
    ∃ acts added, Interspersed s waiting acts [act] added := by
  cases waiting with
  | none => exact ⟨_, _, .kept (.inl rfl) .done⟩
  | some command =>
    cases act with
    | start => exact absurd rfl (hact true)
    | stop => exact absurd rfl (hact false)
    | takeStart =>
      obtain ⟨hw, hpending⟩ := (Bool.and_eq_true _ _).mp hcan
      obtain rfl : command = true := hpending
      exact ⟨_, _, .taken true hw .done⟩
    | takeStop =>
      obtain ⟨hw, hpending⟩ := (Bool.and_eq_true _ _).mp hcan
      obtain rfl : command = false := Bool.not_eq_true' _ ▸ hpending
      exact ⟨_, _, .taken false hw .done⟩
    | _ => exact ⟨_, _, .kept (.inr (.inr rfl)) .done⟩

/-- Acts interspersed with redundant commands stay so whatever happens next, other than that a
command is sent. -/
lemma Interspersed.snoc (h : Interspersed s waiting acts padded added)
    (hr : ∀ command ∈ waiting, Redundant s command) (hact : ∀ command, act ≠ .send command)
    {r : List Move × Service}
    (hdone : (s.withWaiting waiting journal).perform ms' (padded ++ [act]) = some r) :
    ∃ acts added, Interspersed s waiting acts (padded ++ [act]) added := by
  induction h generalizing ms' journal with
  | done =>
    rw [List.nil_append, perform_cons_eq_ite] at hdone
    split at hdone
    · next hcan => exact exists_interspersed_of_can hcan hact
    · cases hdone
  | @kept s waiting first acts padded added hapart h ih =>
    rw [List.cons_append, perform_cons_eq_ite, can_withWaiting hapart] at hdone
    split at hdone
    · next hcan =>
      rw [after_withWaiting hapart hcan] at hdone
      obtain ⟨acts, added, hmore⟩ := ih (redundant_after hr hapart hcan) hdone
      exact ⟨_, _, .kept hapart hmore⟩
    · cases hdone
  | @sent s command acts padded added hended hredundant h ih =>
    rw [List.cons_append, perform_cons (step_send hended hredundant)] at hdone
    obtain ⟨acts, added, hmore⟩ := ih (by rintro _ ⟨rfl⟩; exact hredundant) hdone
    exact ⟨_, _, .sent command hended hredundant hmore⟩
  | @taken s command acts padded added hw h ih =>
    rw [List.cons_append, perform_cons (step_take hw (hr command rfl))] at hdone
    obtain ⟨acts, added, hmore⟩ := ih (by simp) hdone
    exact ⟨_, _, .taken command hw hmore⟩
  | @ignored s waiting command acts padded added hended h ih =>
    rw [List.cons_append, perform_cons (step_ignored hended)] at hdone
    obtain ⟨acts, added, hmore⟩ := ih hr hdone
    exact ⟨_, _, .ignored command hended hmore⟩

/-- Redundant commands are not seen.  With redundant commands inserted, the acts of a service can
be done if and only if they can be done without.  Either way they lead to the same service, but
for a command that waits and for the journal, which has only records of the inserted commands
more.  And nothing else can come of them: whatever happens next, other than that a command is
sent, is again an act of the plain run, or an inserted command is taken. -/
theorem Run.redundant_commands_unseen (h : Interspersed s₀ none acts padded added) :
    (∀ entry ∈ added, ∃ record, entry.2 = .log record ∧ record.level = .debug) ∧
      ((∃ ms s, Run s₀ ms s ∧ actsOf ms = acts) ↔
        ∃ ms' t, Run s₀ ms' t ∧ actsOf ms' = padded) ∧
      (∀ ms s ms' t, Run s₀ ms s → actsOf ms = acts → Run s₀ ms' t → actsOf ms' = padded →
        ∃ waiting journal, t = s.withWaiting waiting journal ∧
          Covers waiting added ms s ms' journal) ∧
      ∀ ms' t act t', Run s₀ ms' t → actsOf ms' = padded → Step t act t' →
        (∀ command, act ≠ .send command) →
          ∃ acts added, Interspersed s₀ none acts (padded ++ [act]) added := by
  have hself : s₀.withWaiting none s₀.world.journal = s₀ := rfl
  -- both runs are what is performed, so the two results determine all of them
  have hrel := h.perform (covers_self s₀)
  rw [List.append_nil, hself] at hrel
  generalize hplain : s₀.perform [] acts = plain at hrel
  generalize hpadded : s₀.perform [] padded = other at hrel
  refine ⟨h.debug, ?_, ?_, ?_⟩
  · simp only [← perform_eq_some_iff, hplain, hpadded]
    cases hrel with
    | none => simp
    | some _ => exact ⟨fun _ => ⟨_, _, rfl⟩, fun _ => ⟨_, _, rfl⟩⟩
  · intro ms s ms' t hr hacts hr' hacts'
    obtain rfl := hplain.symm.trans (perform_eq_some_iff.mpr ⟨hr, hacts⟩)
    obtain rfl := hpadded.symm.trans (perform_eq_some_iff.mpr ⟨hr', hacts'⟩)
    cases hrel with
    | some hcovers => exact hcovers
  · intro ms' t act t' hr hacts hstep hact
    have hnext : actsOf (⟨t, act⟩ :: ms') = padded ++ [act] := by
      rw [actsOf_cons, hacts]
    have hdone := perform_eq_some_iff.mpr ⟨hr.cons hstep, hnext⟩
    exact h.snoc (by simp) hact (hself ▸ hdone)

/-- A configuration with short times. -/
def attentive : Config :=
  { pollFrequency := .ofSeconds 11, inactivityTimeout := .ofSeconds 15 }

/-- An open tunnel, and answers of which the first takes five seconds. -/
def sluggish : Setup where
  hasTunnel := true
  transport := { isOpen := true }
  source :=
    { delays := [5000]
      fallback := { status := .other "BUSY", checkin := (Duration.ofSeconds 11).toBinary64 } }
  clockEnd := 1000000 * nanosPerSecond

/-- The service that this starts. -/
def attentiveAtFirst : Service :=
  begun attentive sluggish {} ⟨attentive.pollFrequency.toBinary64,
    .every (Duration.ofSeconds 11).nanos 0, attentive.pollFrequency⟩

lemma spawn_attentive : spawnWithSource attentive sluggish {} = .ok attentiveAtFirst := by
  have hperiod : Duration.ofBinary64? attentive.pollFrequency.toBinary64 =
      some (.ofSeconds 11) := by decide +kernel
  rw [spawnWithSource_eq, Cadence.start, Ticker.start, hperiod]
  rfl

/-- Polling is started, and the first cycle begins. -/
def settingOut : List Act := [.start, .takeStart, .wait 11000, .tick, .wait 12000]

/-- Activity is reported during the first cycle, until the answer arrives. -/
def stillBusy : List Act :=
  [.wait 13000, .reportActivity, .takeReport, .wait 16000, .answered]

/-- After the second cycle polling is stopped. -/
def stoppingThen : List Act :=
  [.wait 22000, .tick, .answered, .stop, .takeStop, .wait 24000]

/-- The reaper closes the tunnel, and both loops end. -/
def endingAtLast : List Act :=
  [.wait 30000, .check, .reaperClosed, .wait 31000, .cancel, .endPolling, .leave]

/-- Two cycles, from the beginning to the end. -/
def twoCycles : List Act := settingOut ++ (stillBusy ++ (stoppingThen ++ (endingAtLast ++ [])))

/-- The same, with a command to stop before polling has been started, a command to start during the
first cycle, a command to stop when polling has been stopped, and a command to start at the end. -/
def twoCyclesInterspersed : List Act :=
  .stop :: .takeStop :: (settingOut ++ .start :: (stillBusy ++ .takeStart ::
    (stoppingThen ++ .stop :: .takeStop :: (endingAtLast ++ [.start]))))

/-- The records of the inserted commands, the last one first. -/
def insertedRecords : List (Nat × Event) :=
  [(31000, .log .startIgnored), (24000, .log .pollingStopped), (0, .log .pollingStopped)]

lemma interspersed_twoCycles :
    Interspersed attentiveAtFirst none twoCycles twoCyclesInterspersed insertedRecords := by
  have h : Interspersed attentiveAtFirst none twoCycles twoCyclesInterspersed _ :=
    .sent false (by decide +kernel) (by decide +kernel) <| .taken false (by decide +kernel) <|
    .kept_all settingOut (.inl rfl) <|
    .sent true (by decide +kernel) (by decide +kernel) <| .kept_all stillBusy (.inr (by decide)) <|
    .taken true (by decide +kernel) <| .kept_all stoppingThen (.inl rfl) <|
    .sent false (by decide +kernel) (by decide +kernel) <| .taken false (by decide +kernel) <|
    .kept_all endingAtLast (.inl rfl) <| .ignored true (by decide +kernel) .done
  exact h

/-- Four commands are inserted, of which three leave a record.  Nothing is late with them, nor
without them. -/
theorem unseen_in_two_cycles : ∃ ms s ms' waiting journal,
    spawnWithSource attentive sluggish {} = .ok attentiveAtFirst ∧
      Run attentiveAtFirst ms s ∧ actsOf ms = twoCycles ∧
      Run attentiveAtFirst ms' (s.withWaiting waiting journal) ∧
      actsOf ms' = twoCyclesInterspersed ∧ Prompt ms ∧ Prompt ms' ∧
      Interspersed attentiveAtFirst none twoCycles twoCyclesInterspersed insertedRecords ∧
      Covers waiting insertedRecords ms s ms' journal := by
  obtain ⟨-, hruns, hcovers, -⟩ := Run.redundant_commands_unseen interspersed_twoCycles
  have hdone : ((attentiveAtFirst.perform [] twoCyclesInterspersed).any fun r =>
      decide (Prompt r.1)) = true := by decide +kernel
  obtain ⟨⟨ms', t⟩, hperform, hprompt⟩ := (Option.any_eq_true _ _).mp hdone
  obtain ⟨hr', hacts'⟩ := perform_eq_some_iff.mp hperform
  obtain ⟨ms, s, hr, hacts⟩ := hruns.mpr ⟨ms', t, hr', hacts'⟩
  obtain ⟨waiting, journal, rfl, hc⟩ := hcovers ms s ms' t hr hacts hr' hacts'
  have hp' : Prompt ms' := of_decide_eq_true hprompt
  exact ⟨ms, s, ms', waiting, journal, spawn_attentive, hr, hacts, hr', hacts',
    (hc.prompt.mp hp').1, hp', interspersed_twoCycles, hc⟩

/-! ## A redundant command that is seen -/

/-- Polling is started, and the first cycle begins. -/
def toFirstCycle : List Call := [.start, .advance 11000]

/-- There is a command to start, then activity is reported, and time goes on. -/
def startingAgain : List Call := [.start, .reportActivity, .advance 17500]

/-- A command to start that is sent while ticks are taken, at an instant at which nothing else
happens, is not always unseen.  It waits for the end of the cycle; the caller of the next command
to start waits with it and reports activity later than without, so that the reaper does not close
the tunnel. -/
theorem not_unseen : ¬ ∀ (config : Config) (setup : Setup) (world : World) (s₀ s : Service)
    (past : List Call) (before after : Nat) (future : List Call),
    spawnWithSource config setup world = .ok s₀ →
      s = (past ++ [Call.advance before]).foldl call s₀ → 0 < before → 0 < after →
      s.armed = true → s.pollEnded = false → (∀ entry ∈ s.world.journal, entry.1 < s.world.now) →
      ((.start :: .advance after :: future).foldl call s).world.journal =
        ((.advance after :: future).foldl call s).world.journal := by
  intro hunseen
  have hsame := hunseen attentive sluggish {} attentiveAtFirst _ toFirstCycle 1000 1000
    startingAgain spawn_attentive rfl (by decide) (by decide) (by decide +kernel)
    (by decide +kernel) (by decide +kernel)
  have hcalls := congrArg (fun journal => tunnelCalls (journal.map Prod.snd)) hsame
  -- without the command the tunnel is closed once, with it never
  exact absurd hcalls (by decide +kernel)

end Service

end CheckIn
