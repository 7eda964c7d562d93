/-
# What is written reads back

Schedules, targets, identifiers, platforms and configurations are written as JSON, and the reader
of each type takes the text back to the value it was written from.

A schedule shares its object with fields that only the scheduler understands, so these must not
have the names of the two known ones; they are kept in the order of their names.  A configuration
is written with whole seconds, so its durations have to be such.
-/
import CheckIn.Proofs.ScheduleFields

namespace CheckIn
open Json Json.Byte

/-! ## Records -/

/-- The members of a written record. -/
def writtenMembers {κ : Type} (name : κ → String) (write : κ → List Char) (ks : List κ) :
    List Member := ks.map fun k => writtenMember (name k, write k)

section Records

variable {δ κ : Type} {K : Keyed δ κ} {write : κ → List Char}

lemma values_eq_nil (K : Keyed δ κ) (write : κ → List Char) {k : κ} {ks : List κ}
    (h : k ∉ ks) :
    Keyed.values Text.nameOf (K.name k) (writtenMembers K.name write ks) = [] := by
  rw [Keyed.values, List.filterMap_eq_nil_iff]
  intro m hm
  obtain ⟨k', hk', rfl⟩ := List.mem_map.1 hm
  rw [nameOf_writtenMember, if_neg]
  intro he
  exact h (K.name_injective (Option.some.inj he) ▸ hk')

/-- In a written record each key has the value that is written for it. -/
lemma values_writtenMembers (k : κ) :
    Keyed.values Text.nameOf (K.name k) (writtenMembers K.name write K.all) =
      [encoded (write k)] := by
  obtain ⟨before, after, hsplit⟩ := List.append_of_mem (K.mem_all k)
  have hnodup := K.nodup_all
  rw [hsplit, List.nodup_append, List.nodup_cons] at hnodup
  have hbefore : k ∉ before := fun hk => hnodup.2.2 k hk k List.mem_cons_self rfl
  have happend : ∀ ms ms', Keyed.values Text.nameOf (K.name k) (ms ++ ms') =
      Keyed.values Text.nameOf (K.name k) ms ++ Keyed.values Text.nameOf (K.name k) ms' :=
    fun ms ms' => List.filterMap_append
  rw [hsplit, writtenMembers, List.map_append, List.map_cons, happend,
    Keyed.values_cons_self (nameOf_writtenMember (K.name k, write k))]
  have h₁ := values_eq_nil K write hbefore
  have h₂ := values_eq_nil K write hnodup.2.1.1
  rw [writtenMembers] at h₁ h₂
  rw [h₁, h₂]
  rfl

/-- A record whose fields are written in their order is taken back, place by place. -/
theorem takes_writtenRecord (K : Keyed δ κ) (write : κ → List Char) {room : Nat} {start d : δ}
    (hstart : ∀ k, K.get k start = none)
    (hread : ∀ k, ∃ a, Takes (K.read k room) (encoded (write k)) (some a) ∧ K.get k d = some a) :
    Takes (K.record.read (room + 1) start)
      (encoded (writeObject (K.all.map fun k => (K.name k, write k)))) (some d) := by
  have hfold : foldMembers Text.nameOf (K.step fun k => outcome (K.read k room))
      (writtenMembers K.name write K.all) start = some d := by
    refine (K.foldMembers_eq_some_iff _ fun m hm => ?_).2 fun k => ?_
    · obtain ⟨k, -, rfl⟩ := List.mem_map.1 hm
      exact ⟨K.name k, nameOf_writtenMember _⟩
    · obtain ⟨a, ha, hd⟩ := hread k
      rw [values_writtenMembers]
      exact ⟨hstart k, a, ha.outcome_eq, hd⟩
  have hmembers : (K.all.map fun k => (K.name k, write k)).map writtenMember =
      writtenMembers K.name write K.all := List.map_map
  rw [encoded_writeObject, hmembers, ← hfold]
  refine K.takes_object _ room start (fun m hm => ?_) (fun m hm n hn hunknown => ?_)
    fun m hm k hk => ?_
  all_goals obtain ⟨k', -, rfl⟩ := List.mem_map.1 hm
  · exact (quotable_writtenMember _).names
  · rw [nameOf_writtenMember] at hn
    exact absurd (Option.some.inj hn).symm (hunknown k')
  · rw [nameOf_writtenMember] at hk
    obtain rfl := K.name_injective (Option.some.inj hk)
    obtain ⟨a, ha, -⟩ := hread k'
    exact ha.local

end Records

/-- What is written for a field of a target. -/
def StackTarget.written (target : StackTarget) : Key → List Char
  | .id => (decimalInt target.id.toInt).toList
  | .version => (decimalInt target.version.toInt).toList

/-- A target is taken back. -/
theorem StackTarget.takes_write (target : StackTarget) (room : Nat) :
    Takes (read (room + 1)) (encoded target.write) (some target) := by
  have h : Takes (record.read (room + 1) {}) (encoded target.write)
      (some ⟨some target.id, some target.version⟩) := by
    refine takes_writtenRecord keyed target.written (fun k => by cases k <;> rfl) fun k => ?_
    cases k with
    | id => exact ⟨target.id, takes_signed target.id, rfl⟩
    | version => exact ⟨target.version, takes_signed target.version, rfl⟩
  exact takes_read h

/-- An identifier is taken back. -/
theorem EdgeId.takes_write (id : EdgeId) : Takes read (encoded id.write) (some id) :=
  (takes_text "a string" id.text).map

/-- A platform is taken back. -/
theorem Platform.takes_write (platform : Platform) (room : Nat) :
    Takes (read room) (encoded platform.write) (some platform) := by
  refine .of_opens (isValue_text platform.name).opens
    (fun bytes => by simp only [read, skipBlanks_skipBlanks]) fun rest _ => ?_
  rw [write, encoded_write]
  simp only [List.cons_append, List.append_assoc, List.nil_append]
  show (Text.read _ >>= fun p => known p.1 p.2).toOption = _
  rw [toOption_bind, (spells_escape platform.name.toList).names rest]
  show (known platform.name rest).toOption = _
  rw [known, ofKnownName, ofName?_name]
  rfl

/-! ## Configurations -/

theorem Duration.takes_write (d : Duration) :
    Takes read (encoded d.write) (some d.truncated) := by
  have hlt := d.seconds_lt
  have h := takes_unsigned (UInt64.ofNat d.seconds)
  rw [UInt64.toNat_ofNat', Nat.mod_eq_of_lt hlt] at h
  exact h.map

namespace Config

/-- A configuration is taken back up to what is beyond the whole seconds of its durations. -/
theorem takes_write (config : Config) (room : Nat) :
    Takes (read (room + 1)) (encoded config.write) (some config.truncated) := by
  have h : Takes (record.read (room + 1) {}) (encoded config.write)
      (some config.truncated.toDraft) := by
    refine takes_writtenRecord keyed config.writeValue (fun k => by cases k <;> rfl) fun k => ?_
    cases k with
    | pollFrequency | inactivityTimeout => exact ⟨_, Duration.takes_write _, rfl⟩
    | insecurePoll | tunnelCapability => exact ⟨_, takes_boolean _, rfl⟩
    | edgeId => exact ⟨_, EdgeId.takes_write _, rfl⟩
    | platform => exact ⟨_, Platform.takes_write _ _, rfl⟩
    | apiServerAddr | endpointId | controllerUrl | tunnelServerAddr | tunnelServerFingerprint =>
      exact ⟨_, takes_text _ _, rfl⟩
  exact h.map

end Config

/-! ## The round trip -/

/-- Decoding undoes encoding: for schedules whose other fields are exact values within the
limit of the reader, in the order of their names and without the two known ones; for targets,
identifiers and platforms; and for configurations with whole seconds. -/
theorem decode_encode :
    (∀ schedule : Schedule, (schedule.definition.map Prod.fst).Pairwise (· < ·) →
      (∀ f ∈ schedule.definition, f.1 ≠ "Id" ∧ f.1 ≠ "CollectLogs") →
      (∀ f ∈ schedule.definition, Exact f.2 ∧ depth f.2 < nestingRoom) →
      (Schedule.read nestingRoom).whole (utf8 (String.ofList schedule.write)) = .ok schedule) ∧
    (∀ target : StackTarget,
      (StackTarget.read nestingRoom).whole (utf8 (String.ofList target.write)) = .ok target) ∧
    (∀ id : EdgeId, EdgeId.read.whole (utf8 (String.ofList id.write)) = .ok id) ∧
    (∀ platform : Platform,
      (Platform.read nestingRoom).whole (utf8 (String.ofList platform.write)) = .ok platform) ∧
    ∀ config : Config, config.pollFrequency.subsecondNanos = 0 →
      config.inactivityTimeout.subsecondNanos = 0 →
      (Config.read nestingRoom).whole (utf8 (String.ofList config.write)) = .ok config := by
  refine ⟨fun schedule sorted hnames hexact => ?_, fun target => ?_, fun id => ?_,
    fun platform => ?_, fun config h₁ h₂ => ?_⟩
  · have hroom : ∀ f ∈ schedule.definition, Exact f.2 ∧ depth f.2 ≤ 126 := fun f hf =>
      ⟨(hexact f hf).1, Nat.le_of_lt_succ (hexact f hf).2⟩
    exact whole_written (schedule.takes_write sorted hnames hroom)
  · exact whole_written (target.takes_write 126)
  · exact whole_written id.takes_write
  · exact whole_written (platform.takes_write 127)
  · have h := config.takes_write 126
    rw [Config.truncated_eq_self h₁ h₂] at h
    exact whole_written h

/-- A schedule with names and values of every kind. -/
def nightly : Schedule where
  id := -9223372036854775808
  collectLogs := true
  definition := [
    ("", .array [.null, .array [], .object [("\x00\"", .text "\u2028\\"), ("é", .boolean false)]]),
    ("id", .number (.whole 18446744073709551615 (by decide))),
    ("ä", .number (.whole (-1) (by decide)))]

theorem nightly_decoded :
    (nightly.definition.map Prod.fst).Pairwise (· < ·) ∧
    (∀ f ∈ nightly.definition, f.1 ≠ "Id" ∧ f.1 ≠ "CollectLogs") ∧
    (∀ f ∈ nightly.definition, Exact f.2 ∧ depth f.2 < nestingRoom) ∧
    (Schedule.read nestingRoom).whole (utf8 (String.ofList nightly.write)) = .ok nightly ∧
    (Config.read nestingRoom).whole (utf8 (String.ofList ({} : Config).write)) =
      .ok ({} : Config) := by
  have sorted : (nightly.definition.map Prod.fst).Pairwise (· < ·) := by decide
  have hnames : ∀ f ∈ nightly.definition, f.1 ≠ "Id" ∧ f.1 ≠ "CollectLogs" := by
    simp [nightly]
  have hobject : Exact (.object [("\x00\"", .text "\u2028\\"), ("é", .boolean false)]) := by
    refine .object (by decide) fun f hf => ?_
    simp only [List.mem_cons, List.not_mem_nil, or_false] at hf
    rcases hf with rfl | rfl
    · exact .text _
    · exact .boolean _
  have hexact : ∀ f ∈ nightly.definition, Exact f.2 ∧ depth f.2 < nestingRoom := by
    intro f hf
    simp only [nightly, List.mem_cons, List.not_mem_nil, or_false] at hf
    rcases hf with rfl | rfl | rfl
    · refine ⟨.array fun v hv => ?_, by decide⟩
      simp only [List.mem_cons, List.not_mem_nil, or_false] at hv
      rcases hv with rfl | rfl | rfl
      · exact .null
      · exact .array (by simp)
      · exact hobject
    · exact ⟨.whole _ _, by decide⟩
    · exact ⟨.whole _ _, by decide⟩
  exact ⟨sorted, hnames, hexact, decode_encode.1 nightly sorted hnames hexact,
    decode_encode.2.2.2.2 {} rfl rfl⟩

end CheckIn
