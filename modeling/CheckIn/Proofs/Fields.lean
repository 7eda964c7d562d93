/-
# The fields of the records

Targets, answers and configurations are read field by field into drafts, and each field has a
place of its own in the draft; a schedule keeps what is in no field.  What a member makes of a
draft depends on nothing that stands around the member.
-/
import CheckIn.Config.Json
import CheckIn.Proofs.Json.Records
import CheckIn.Response

namespace CheckIn
open Json Json.Byte

/-! ## Schedules and targets -/

namespace Schedule

/-- What a member makes of a draft. -/
def step (room : Nat) (n : String) (v : List UInt8) (draft : Draft) : Option Draft :=
  if n = "Id" then
    if draft.id.isSome then none
    else (outcome signed v).map fun id => { draft with id := some id }
  else if n = "CollectLogs" then
    if draft.collectLogs.isSome then none
    else (outcome boolean v).map fun wanted => { draft with collectLogs := some wanted }
  else (outcome (value room) v).map fun kept =>
    { draft with definition := insertField n kept draft.definition }

lemma takes_field {v : List UInt8} (hv : IsValue v) (room : Nat) (n : String) (draft : Draft) :
    TakesField (field room n draft) v (step room n v draft) := by
  intro before after rest hr
  unfold field step
  split
  · split
    · rfl
    · exact (Takes.map hv.local_signed).field before after rest hr
  · split
    · split
      · rfl
      · exact (Takes.map hv.local_boolean).field before after rest hr
    · exact (Takes.map (hv.local_value room)).field before after rest hr

/-- The schedule of a draft, if it has an identifier. -/
def ofDraft? (draft : Draft) : Option Schedule :=
  draft.id.map fun id => ⟨id, draft.collectLogs.getD false, draft.definition⟩

lemma read_skips (room : Nat) (bytes : List UInt8) :
    read room bytes = read room (skipBlanks bytes) := by
  simp only [read, skipBlanks_skipBlanks]

lemma read_other {b : UInt8} (hb : isBlank b = false) (ho : b ≠ openBrace) (room : Nat)
    (rest : List UInt8) : (read room (b :: rest)).toOption = none := by
  rw [read, skipBlanks_cons hb]
  split
  · next he => exact absurd (List.cons.inj he).1 ho
  · rfl

/-- An object is read by its members, if one of them is the identifier. -/
lemma takes_members {room : Nat} {gap : Blanks} {members : List Member}
    (names : ∀ m ∈ members, Quotable m.name) (values : ∀ m ∈ members, IsValue m.value) :
    Takes (read (room + 1)) (objectBytes gap members)
      ((foldMembers Text.nameOf (step room) members {}).bind ofDraft?) := by
  refine .of_opens ⟨openBrace, _, rfl, by decide, by decide, by decide⟩ (read_skips _)
    fun rest _ => ?_
  have h := object_content (field room) Text.nameOf (step room) gap rest {}
    (fun m hm => (names m hm).names) fun m hm n _ draft => takes_field (values m hm) room n draft
  simp only [objectBytes, List.cons_append, List.append_assoc, List.nil_append]
  show (object (field room) {} _ >>= fun p => required "Id" p.1.id p.2 >>= fun q =>
    Except.ok (Schedule.mk q.1 (p.1.collectLogs.getD false) p.1.definition, q.2)).toOption = _
  rw [toOption_bind, h]
  cases foldMembers Text.nameOf (step room) members {} with
  | none => rfl
  | some draft =>
    obtain ⟨_ | id, _, _⟩ := draft <;> rfl

/-- What is read as a schedule does not depend on what stands around it. -/
lemma local_read (room : Nat) {v : List UInt8} (hv : IsValue v) : Local (read room) v := by
  have hopens := hv.opens
  cases hv with
  | @members gap members names values =>
    cases room with
    | zero => exact .of_settled hopens (read_skips 0) ⟨none, fun rest _ => rfl⟩
    | succ room => exact (takes_members names values).local
  | numeral n =>
    obtain ⟨b, more, hb, hd⟩ := n.first
    have ⟨h₁, _, _, h₂, _⟩ := number_first hd
    refine .of_settled hopens (read_skips room) ⟨none, fun rest _ => ?_⟩
    rw [hb]
    exact read_other h₁ h₂ room (more ++ rest)
  | null | yes | no | string | array =>
    exact .of_settled hopens (read_skips room) ⟨none, fun rest _ => rfl⟩

end Schedule

namespace StackTarget

/-- The two keys of a target. -/
inductive Key
  | id
  | version
deriving DecidableEq

namespace Key

def name : Key → String
  | id => "ID"
  | version => "Version"

def get : Key → Draft → Option Int64
  | id, d => d.id
  | version, d => d.version

def set : Key → Int64 → Draft → Draft
  | id, v, d => { d with id := some v }
  | version, v, d => { d with version := some v }

end Key

/-- The fields of a target are read into a place each. -/
def keyed : Keyed Draft Key where
  record := record
  name := Key.name
  Val _ := Int64
  get := Key.get
  set := Key.set
  read _ _ := signed
  all := [.id, .version]
  fields_eq := rfl
  mem_all k := by cases k <;> simp
  nodup_all := by decide
  name_injective {k k'} h := by
    cases k <;> cases k' <;> first | rfl | exact absurd h (by decide)
  get_set k v d := by cases k <;> rfl
  get_set_of_ne {k k'} v d h := by
    cases k <;> cases k' <;> first | rfl | exact absurd rfl h
  ext {d d'} h := by
    have h₁ : d.id = d'.id := h .id
    have h₂ : d.version = d'.version := h .version
    cases d
    cases d'
    exact congr (congrArg Draft.mk h₁) h₂

/-- The target of a draft, if it is complete. -/
def ofDraft? (draft : Draft) : Option StackTarget :=
  draft.id.bind fun id => draft.version.map fun version => ⟨id, version⟩

/-- A target is what its record is, if that is complete. -/
lemma takes_read {room : Nat} {v : List UInt8} {result : Option Draft}
    (h : Takes (record.read room {}) v result) : Takes (read room) v (result.bind ofDraft?) := by
  refine h.bind fun draft rest => ?_
  obtain ⟨_ | id, _ | version⟩ := draft <;> rfl

/-- What is read as a target does not depend on what stands around it. -/
lemma local_read (room : Nat) {v : List UInt8} (hv : IsValue v) : Local (read room) v :=
  (takes_read (keyed.local_read (fun _ _ _ hv => hv.local_signed) room {} hv)).local

end StackTarget

namespace Response

/-! ## Answers -/

/-- The known keys of an answer. -/
inductive Key
  | status
  | port
  | schedules
  | checkin
  | credentials
  | stackTargets
deriving DecidableEq

namespace Key

def name : Key → String
  | status => "status"
  | port => "port"
  | schedules => "schedules"
  | checkin => "checkin"
  | credentials => "credentials"
  | stackTargets => "stacks"

/-- The keys in the order of declaration. -/
def all : List Key := [status, port, schedules, checkin, credentials, stackTargets]

/-- What the field of a key holds. -/
abbrev Val : Key → Type
  | status => Status
  | port => Int64
  | schedules => List Schedule
  | checkin => Binary64
  | credentials => String
  | stackTargets => Option (List StackTarget)

/-- The field of a key in an answer. -/
def of : (k : Key) → Response → k.Val
  | status, r => r.status
  | port, r => r.port
  | schedules, r => r.schedules
  | checkin, r => r.checkin
  | credentials, r => r.credentials
  | stackTargets, r => r.stackTargets

def get : (k : Key) → Draft → Option k.Val
  | status, d => d.status
  | port, d => d.port
  | schedules, d => d.schedules
  | checkin, d => d.checkin
  | credentials, d => d.credentials
  | stackTargets, d => d.stackTargets

def set : (k : Key) → k.Val → Draft → Draft
  | status, v, d => { d with status := some v }
  | port, v, d => { d with port := some v }
  | schedules, v, d => { d with schedules := some v }
  | checkin, v, d => { d with checkin := some v }
  | credentials, v, d => { d with credentials := some v }
  | stackTargets, v, d => { d with stackTargets := some v }

def read : (k : Key) → (room : Nat) → Reader k.Val
  | status, _ => Status.read
  | port, _ => signed
  | schedules, room => readSchedules room
  | checkin, _ => real
  | credentials, _ => text "a string"
  | stackTargets, room => optional (sequence room StackTarget.read)

end Key

/-- The fields of an answer are read into a place each. -/
def keyed : Keyed Draft Key where
  record := record
  name := Key.name
  Val := Key.Val
  get := Key.get
  set := Key.set
  read := Key.read
  all := Key.all
  fields_eq := rfl
  mem_all k := by cases k <;> simp [Key.all]
  nodup_all := by decide
  name_injective {k k'} h := by
    cases k <;> cases k' <;> first | rfl | exact absurd h (by decide)
  get_set k v d := by cases k <;> rfl
  get_set_of_ne {k k'} v d h := by
    cases k <;> cases k' <;> first | rfl | exact absurd rfl h
  ext {d d'} h := by
    have h₁ : d.status = d'.status := h .status
    have h₂ : d.port = d'.port := h .port
    have h₃ : d.schedules = d'.schedules := h .schedules
    have h₄ : d.checkin = d'.checkin := h .checkin
    have h₅ : d.credentials = d'.credentials := h .credentials
    have h₆ : d.stackTargets = d'.stackTargets := h .stackTargets
    cases d
    cases d'
    simp_all

/-- A status is the text that it is written as, or nothing. -/
lemma takes_status {v : List UInt8} (hv : IsValue v) {result : Option String}
    (h : Takes (text "a string") v result) :
    Takes Status.read v ((if v = utf8 "null" then some none else result.map some).bind
      fun t => some (t.elim Status.unspecified Status.ofText)) := by
  refine (hv.takes_optional h).bind fun t rest => ?_
  cases t <;> rfl

/-- What a field of an answer is read as does not depend on what stands around it. -/
lemma Key.local_read (k : Key) (room : Nat) {v : List UInt8} (hv : IsValue v) :
    Local (k.read room) v := by
  cases k with
  | status => exact (takes_status hv hv.local_text).local
  | port => exact hv.local_signed
  | schedules =>
    exact (hv.local_optional (hv.local_sequence (fun room _ => Schedule.local_read room) room)).map
  | checkin => exact hv.local_real
  | credentials => exact hv.local_text
  | stackTargets =>
    exact hv.local_optional (hv.local_sequence (fun room _ => StackTarget.local_read room) room)

end Response

/-! ## Configurations -/

/-- The duration without what is beyond its whole seconds. -/
def Duration.truncated (d : Duration) : Duration := .ofSeconds (UInt64.ofNat d.seconds)

lemma Duration.nanos_truncated (d : Duration) :
    d.truncated.nanos = d.seconds * nanosPerSecond := by
  have hlt := d.seconds_lt
  rw [truncated, nanos_ofSeconds, UInt64.toNat_ofNat', Nat.mod_eq_of_lt hlt]

/-- A whole number of seconds is its own truncation. -/
lemma Duration.truncated_eq_self {d : Duration} (h : d.subsecondNanos = 0) :
    d.truncated = d := by
  refine Duration.ext ?_
  rw [nanos_truncated, seconds]
  exact Nat.div_mul_cancel (Nat.dvd_of_mod_eq_zero h)

namespace Config

/-- What the entry of a key holds. -/
abbrev Key.Val : Key → Type
  | .apiServerAddr | .endpointId | .controllerUrl | .tunnelServerAddr
  | .tunnelServerFingerprint => String
  | .edgeId => EdgeId
  | .pollFrequency | .inactivityTimeout => Duration
  | .insecurePoll | .tunnelCapability => Bool
  | .platform => Platform

def Key.get : (k : Key) → Draft → Option k.Val
  | .apiServerAddr, d => d.apiServerAddr
  | .edgeId, d => d.edgeId
  | .endpointId, d => d.endpointId
  | .controllerUrl, d => d.controllerUrl
  | .pollFrequency, d => d.pollFrequency
  | .inactivityTimeout, d => d.inactivityTimeout
  | .insecurePoll, d => d.insecurePoll
  | .tunnelCapability, d => d.tunnelCapability
  | .tunnelServerAddr, d => d.tunnelServerAddr
  | .tunnelServerFingerprint, d => d.tunnelServerFingerprint
  | .platform, d => d.platform

def Key.set : (k : Key) → k.Val → Draft → Draft
  | .apiServerAddr, v, d => { d with apiServerAddr := some v }
  | .edgeId, v, d => { d with edgeId := some v }
  | .endpointId, v, d => { d with endpointId := some v }
  | .controllerUrl, v, d => { d with controllerUrl := some v }
  | .pollFrequency, v, d => { d with pollFrequency := some v }
  | .inactivityTimeout, v, d => { d with inactivityTimeout := some v }
  | .insecurePoll, v, d => { d with insecurePoll := some v }
  | .tunnelCapability, v, d => { d with tunnelCapability := some v }
  | .tunnelServerAddr, v, d => { d with tunnelServerAddr := some v }
  | .tunnelServerFingerprint, v, d => { d with tunnelServerFingerprint := some v }
  | .platform, v, d => { d with platform := some v }

def Key.read : (k : Key) → (room : Nat) → Reader k.Val
  | .apiServerAddr, _ | .endpointId, _ | .controllerUrl, _ | .tunnelServerAddr, _
  | .tunnelServerFingerprint, _ => Json.text "a string"
  | .edgeId, _ => EdgeId.read
  | .pollFrequency, _ | .inactivityTimeout, _ => Duration.read
  | .insecurePoll, _ | .tunnelCapability, _ => boolean
  | .platform, room => Platform.read room

/-- The entries of a configuration are read into a place each. -/
def keyed : Keyed Draft Key where
  record := record
  name := Key.name
  Val := Key.Val
  get := Key.get
  set := Key.set
  read := Key.read
  all := Key.all
  fields_eq := rfl
  mem_all := Key.mem_all
  nodup_all := by decide
  name_injective {k k'} h := by
    have := Key.ofName?_name k
    rw [h, Key.ofName?_name] at this
    exact (Option.some.inj this).symm
  get_set k v d := by cases k <;> rfl
  get_set_of_ne {k k'} v d h := by
    cases k <;> cases k' <;> first | rfl | exact absurd rfl h
  ext {d d'} h := by
    have h₁ : d.apiServerAddr = d'.apiServerAddr := h .apiServerAddr
    have h₂ : d.edgeId = d'.edgeId := h .edgeId
    have h₃ : d.endpointId = d'.endpointId := h .endpointId
    have h₄ : d.controllerUrl = d'.controllerUrl := h .controllerUrl
    have h₅ : d.pollFrequency = d'.pollFrequency := h .pollFrequency
    have h₆ : d.inactivityTimeout = d'.inactivityTimeout := h .inactivityTimeout
    have h₇ : d.insecurePoll = d'.insecurePoll := h .insecurePoll
    have h₈ : d.tunnelCapability = d'.tunnelCapability := h .tunnelCapability
    have h₉ : d.tunnelServerAddr = d'.tunnelServerAddr := h .tunnelServerAddr
    have h₁₀ : d.tunnelServerFingerprint = d'.tunnelServerFingerprint :=
      h .tunnelServerFingerprint
    have h₁₁ : d.platform = d'.platform := h .platform
    cases d
    cases d'
    simp_all

/-- The configuration with its durations cut to whole seconds. -/
def truncated (config : Config) : Config :=
  { config with
    pollFrequency := config.pollFrequency.truncated
    inactivityTimeout := config.inactivityTimeout.truncated }

/-- The draft that has all entries of a configuration. -/
def toDraft (config : Config) : Draft where
  apiServerAddr := some config.apiServerAddr
  edgeId := some config.edgeId
  endpointId := some config.endpointId
  controllerUrl := some config.controllerUrl
  pollFrequency := some config.pollFrequency
  inactivityTimeout := some config.inactivityTimeout
  insecurePoll := some config.insecurePoll
  tunnelCapability := some config.tunnelCapability
  tunnelServerAddr := some config.tunnelServerAddr
  tunnelServerFingerprint := some config.tunnelServerFingerprint
  platform := some config.platform

lemma truncated_eq_self {config : Config} (h₁ : config.pollFrequency.subsecondNanos = 0)
    (h₂ : config.inactivityTimeout.subsecondNanos = 0) : config.truncated = config := by
  rw [truncated, Duration.truncated_eq_self h₁, Duration.truncated_eq_self h₂]

end Config

end CheckIn
