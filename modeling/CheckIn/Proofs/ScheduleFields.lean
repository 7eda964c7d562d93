/-
# A schedule keeps what it is given

A schedule is an object of which two fields are known and all others are the scheduler's business.
The known fields may be given once each and have to fit, `Id` has to be given; of another field
that is given more than once the last value counts.  So an object is a schedule exactly if it
`Holds` one, and then the other fields are kept as they are, at every depth.

What is written for a schedule is an object with the same fields.  If no doubles are among them it
is read back as the same schedule, and so it is written again as it was.
-/
import CheckIn.Proofs.Fields
import CheckIn.Proofs.Json.Writing

namespace CheckIn
open Json Json.Byte

/-- A signed number of 64 bits as a value. -/
def Json.Value.ofInt64 (i : Int64) : Value :=
  .number (.whole i.toInt (by have := i.le_toInt; have := i.toInt_lt; omega))

namespace Schedule

variable {room : Nat} {t : List UInt8} {v : Value} {pairs : List (String × Value)}
  {draft draft' : Draft} {schedule : Schedule}

/-! ## The known fields -/

/-- The identifier that a value is, if it is one. -/
def idOf? (v : Value) : Option Int64 := v.number?.bind signedOf?

lemma idOf?_eq_some_iff {i : Int64} : idOf? v = some i ↔ v = .ofInt64 i := by
  have hlo := i.le_toInt
  have hhi := i.toInt_lt
  constructor
  · intro h
    match v with
    | .number (.whole value bounds) =>
      simp only [idOf?, Value.number?, Option.bind_some, signedOf?] at h
      split at h
      · next hfit =>
        obtain rfl := Option.some.inj h
        simp only [Value.ofInt64, Int64.toInt_ofInt_of_le hfit.1 hfit.2]
      · cases h
  · rintro rfl
    have hfit : -0x8000000000000000 ≤ i.toInt ∧ i.toInt < 0x8000000000000000 := by omega
    simp only [idOf?, Value.ofInt64, Value.number?, Option.bind_some, signedOf?, if_pos hfit,
      Int64.ofInt_toInt]

lemma boolean?_eq_some_iff {b : Bool} : v.boolean? = some b ↔ v = .boolean b := by
  cases v <;> simp [Value.boolean?]

/-- Whether a field is none of the two known ones. -/
def isOther (field : String × Value) : Bool := field.1 ≠ "Id" && field.1 ≠ "CollectLogs"

/-- What a field makes of a draft. -/
def fill (draft : Draft) (field : String × Value) : Option Draft :=
  if field.1 = "Id" then
    if draft.id.isSome then none
    else (idOf? field.2).map fun id => { draft with id := some id }
  else if field.1 = "CollectLogs" then
    if draft.collectLogs.isSome then none
    else field.2.boolean?.map fun wanted => { draft with collectLogs := some wanted }
  else some { draft with definition := insertField field.1 field.2 draft.definition }

/-- A member is what its name and its value are. -/
lemma step_eq_fill (h : Denotes room t v) (name : String) (draft : Draft) :
    step room name t draft = fill draft (name, v) := by
  have hid : outcome signed t = idOf? v := (h.takes_number "i64").signed.outcome_eq
  rw [step, fill, hid, h.takes_boolean.outcome_eq, h.takes_value.outcome_eq]
  rfl

lemma foldMembers_step (body : Body room) (draft : Draft) :
    foldMembers Text.nameOf (step room) body.members draft = body.pairs.foldlM fill draft := by
  obtain ⟨_, members, name, meaning, names, values⟩ := body
  simp only [Body.pairs]
  induction members generalizing draft with
  | nil => rfl
  | cons m members ih =>
    have hname := (names m List.mem_cons_self).names.nameOf_eq
    rw [foldMembers_cons, hname, Option.bind_some, List.map_cons, List.foldlM_cons,
      step_eq_fill (values m List.mem_cons_self)]
    refine congrArg _ (funext fun draft => ?_)
    exact ih draft (fun m' hm' => names m' (List.mem_cons_of_mem m hm'))
      fun m' hm' => values m' (List.mem_cons_of_mem m hm')

/-- How a place of a draft is filled by the values that its field is given. -/
def Taken {α : Type} (read : Value → Option α) (vs : List Value) (before after : Option α) :
    Prop :=
  match vs with
  | [] => after = before
  | [v] => before = none ∧ ∃ a, read v = some a ∧ after = some a
  | _ => False

/-- One more value: it has to be the only one. -/
lemma taken_cons {α : Type} {read : Value → Option α} {vs : List Value}
    {before after : Option α} : Taken read (v :: vs) before after ↔
      before = none ∧ ∃ a, read v = some a ∧ Taken read vs (some a) after := by
  match vs with
  | [] => exact Iff.rfl
  | [w] => simp [Taken]
  | _ :: _ :: _ => simp [Taken]

/-- What fields make of a draft, place by place. -/
structure Filled (pairs : List (String × Value)) (draft draft' : Draft) : Prop where
  id : Taken idOf? (valuesOf "Id" pairs) draft.id draft'.id
  collectLogs :
    Taken Value.boolean? (valuesOf "CollectLogs" pairs) draft.collectLogs draft'.collectLogs
  definition : draft'.definition = (pairs.filter isOther).foldl
    (fun sorted field => insertField field.1 field.2 sorted) draft.definition

lemma filled_cons_id : Filled (("Id", v) :: pairs) draft draft' ↔
    draft.id = none ∧ ∃ id, idOf? v = some id ∧
      Filled pairs { draft with id := some id } draft' := by
  have hlogs := valuesOf_cons_of_ne (show "Id" ≠ "CollectLogs" by decide) v pairs
  have hother : (("Id", v) :: pairs).filter isOther = pairs.filter isOther := by
    simp [isOther]
  constructor
  · rintro ⟨h₁, h₂, h₃⟩
    rw [valuesOf_cons_self, taken_cons] at h₁
    obtain ⟨hnone, id, hid, h₁⟩ := h₁
    exact ⟨hnone, id, hid, h₁, hlogs ▸ h₂, hother ▸ h₃⟩
  · rintro ⟨hnone, id, hid, h₁, h₂, h₃⟩
    refine ⟨?_, hlogs ▸ h₂, hother ▸ h₃⟩
    rw [valuesOf_cons_self, taken_cons]
    exact ⟨hnone, id, hid, h₁⟩

lemma filled_cons_collectLogs : Filled (("CollectLogs", v) :: pairs) draft draft' ↔
    draft.collectLogs = none ∧ ∃ wanted, v.boolean? = some wanted ∧
      Filled pairs { draft with collectLogs := some wanted } draft' := by
  have hid := valuesOf_cons_of_ne (show "CollectLogs" ≠ "Id" by decide) v pairs
  have hother : (("CollectLogs", v) :: pairs).filter isOther = pairs.filter isOther := by
    simp [isOther]
  constructor
  · rintro ⟨h₁, h₂, h₃⟩
    rw [valuesOf_cons_self, taken_cons] at h₂
    obtain ⟨hnone, wanted, hwanted, h₂⟩ := h₂
    exact ⟨hnone, wanted, hwanted, hid ▸ h₁, h₂, hother ▸ h₃⟩
  · rintro ⟨hnone, wanted, hwanted, h₁, h₂, h₃⟩
    refine ⟨hid ▸ h₁, ?_, hother ▸ h₃⟩
    rw [valuesOf_cons_self, taken_cons]
    exact ⟨hnone, wanted, hwanted, h₂⟩

lemma filled_cons_other {name : String} (hid : name ≠ "Id") (hlogs : name ≠ "CollectLogs") :
    Filled ((name, v) :: pairs) draft draft' ↔
      Filled pairs { draft with definition := insertField name v draft.definition } draft' := by
  have hother : ((name, v) :: pairs).filter isOther = (name, v) :: pairs.filter isOther := by
    simp [isOther, hid, hlogs]
  constructor
  · rintro ⟨h₁, h₂, h₃⟩
    rw [valuesOf_cons_of_ne hid] at h₁
    rw [valuesOf_cons_of_ne hlogs] at h₂
    rw [hother] at h₃
    exact ⟨h₁, h₂, h₃⟩
  · rintro ⟨h₁, h₂, h₃⟩
    refine ⟨?_, ?_, ?_⟩
    · rwa [valuesOf_cons_of_ne hid]
    · rwa [valuesOf_cons_of_ne hlogs]
    · rwa [hother]

/-- A place is filled once, by a value that fits. -/
lemma exists_filled_iff {α : Type} {place read : Option α} {set : α → Draft} {P : Draft → Prop} :
    (∃ next, (if place.isSome then none else read.map set) = some next ∧ P next) ↔
      place = none ∧ ∃ a, read = some a ∧ P (set a) := by
  cases place with
  | some a => simp
  | none =>
    cases read with
    | none => simp
    | some a => simp

/-- What fields make of a draft is found place by place. -/
theorem foldlM_fill_eq_some_iff : ∀ {draft : Draft},
    pairs.foldlM fill draft = some draft' ↔ Filled pairs draft draft' := by
  induction pairs with
  | nil =>
    intro draft
    constructor
    · intro h
      obtain rfl := Option.some.inj h
      exact ⟨rfl, rfl, rfl⟩
    · rintro ⟨hid, hlogs, hdefinition⟩
      obtain ⟨_, _, _⟩ := draft
      obtain ⟨_, _, _⟩ := draft'
      cases hid
      cases hlogs
      cases hdefinition
      rfl
  | cons field rest ih =>
    intro draft
    obtain ⟨name, v⟩ := field
    have hfirst : ((name, v) :: rest).foldlM fill draft = some draft' ↔
        ∃ next, fill draft (name, v) = some next ∧ Filled rest next draft' := by
      rw [List.foldlM_cons]
      simp only [Option.bind_eq_bind, Option.bind_eq_some_iff, ih]
    rw [hfirst]
    by_cases hid : name = "Id"
    · subst hid
      rw [filled_cons_id, fill, if_pos rfl, exists_filled_iff]
    · by_cases hlogs : name = "CollectLogs"
      · subst hlogs
        rw [filled_cons_collectLogs, fill, if_neg hid, if_pos rfl, exists_filled_iff]
      · rw [filled_cons_other hid hlogs, fill, if_neg hid, if_neg hlogs]
        simp

/-! ## Objects -/

/-- The schedule that the fields of an object hold. -/
structure Holds (pairs : List (String × Value)) (schedule : Schedule) : Prop where
  id : valuesOf "Id" pairs = [.ofInt64 schedule.id]
  collectLogs : (valuesOf "CollectLogs" pairs = [] ∧ schedule.collectLogs = false) ∨
    valuesOf "CollectLogs" pairs = [.boolean schedule.collectLogs]
  definition : Keeps (pairs.filter isOther) schedule.definition

lemma taken_none_iff {α : Type} {read : Value → Option α} {vs : List Value} {a : α} :
    Taken read vs none (some a) ↔ ∃ v, vs = [v] ∧ read v = some a := by
  match vs with
  | [] => simp [Taken]
  | [v] => simp [Taken]
  | _ :: _ :: _ => simp [Taken]

lemma taken_none_none_iff {α : Type} {read : Value → Option α} {vs : List Value} :
    Taken read vs none none ↔ vs = [] := by
  match vs with
  | [] => simp [Taken]
  | [v] => simp [Taken]
  | _ :: _ :: _ => simp [Taken]

/-- An object is read as the schedule that it holds. -/
theorem bind_ofDraft?_eq_some_iff :
    (pairs.foldlM fill {}).bind ofDraft? = some schedule ↔ Holds pairs schedule := by
  rw [Option.bind_eq_some_iff]
  constructor
  · rintro ⟨⟨id, collectLogs, definition⟩, hfold, hschedule⟩
    obtain ⟨hid, hlogs, hdefinition⟩ := foldlM_fill_eq_some_iff.mp hfold
    obtain ⟨id, rfl, rfl⟩ := Option.map_eq_some_iff.mp hschedule
    obtain ⟨v, hvalues, hv⟩ := taken_none_iff.mp hid
    rw [idOf?_eq_some_iff] at hv
    refine ⟨hv ▸ hvalues, ?_, ?_⟩
    · cases collectLogs with
      | none => exact .inl ⟨taken_none_none_iff.mp hlogs, rfl⟩
      | some wanted =>
        obtain ⟨v, hvalues, hv⟩ := taken_none_iff.mp hlogs
        rw [boolean?_eq_some_iff] at hv
        exact .inr (hv ▸ hvalues)
    · simp only at hdefinition
      subst hdefinition
      exact keeps_sortFields _
  · rintro ⟨hid, hlogs, hdefinition⟩
    have hsorted := (keeps_sortFields _).unique hdefinition
    have htakenId : Taken idOf? (valuesOf "Id" pairs) none (some schedule.id) :=
      taken_none_iff.mpr ⟨_, hid, idOf?_eq_some_iff.mpr rfl⟩
    rcases hlogs with ⟨hnone, hfalse⟩ | hone
    · refine ⟨⟨some schedule.id, none, schedule.definition⟩, foldlM_fill_eq_some_iff.mpr
        ⟨htakenId, taken_none_none_iff.mpr hnone, hsorted.symm⟩, ?_⟩
      show some (Schedule.mk schedule.id false schedule.definition) = some schedule
      rw [← hfalse]
    · exact ⟨⟨some schedule.id, some schedule.collectLogs, schedule.definition⟩,
        foldlM_fill_eq_some_iff.mpr ⟨htakenId,
          taken_none_iff.mpr ⟨_, hone, boolean?_eq_some_iff.mpr rfl⟩, hsorted.symm⟩, rfl⟩

/-- The text of an object is taken as the schedule that its fields hold. -/
lemma takes_body (body : Body room) :
    Takes (read (room + 1)) body.bytes ((body.pairs.foldlM fill {}).bind ofDraft?) := by
  rw [← foldMembers_step]
  exact takes_members (fun m hm => (body.names m hm).quotable)
    fun m hm => (body.values m hm).isValue

lemma whole_eq_ok_iff (body : Body room) (before after : Blanks) :
    (read (room + 1)).whole (before.bytes ++ (body.bytes ++ after.bytes)) = .ok schedule ↔
      Holds body.pairs schedule := by
  rw [← toOption_eq_some_iff, (takes_body body).whole before after, bind_ofDraft?_eq_some_iff]

/-- An object holds a schedule if its known fields fit. -/
lemma exists_holds_iff : (∃ schedule, Holds pairs schedule) ↔
    (∃ i, valuesOf "Id" pairs = [.ofInt64 i]) ∧
      (valuesOf "CollectLogs" pairs = [] ∨ ∃ b, valuesOf "CollectLogs" pairs = [.boolean b]) := by
  constructor
  · rintro ⟨schedule, hid, hlogs, -⟩
    exact ⟨⟨_, hid⟩, hlogs.imp And.left fun h => ⟨_, h⟩⟩
  · rintro ⟨⟨i, hid⟩, hnone | ⟨b, hone⟩⟩
    · exact ⟨⟨i, false, _⟩, hid, .inl ⟨hnone, rfl⟩, keeps_sortFields _⟩
    · exact ⟨⟨i, b, _⟩, hid, .inr hone, keeps_sortFields _⟩

lemma valuesOf_filter_isOther {k : String} (hid : k ≠ "Id") (hlogs : k ≠ "CollectLogs") :
    valuesOf k (pairs.filter isOther) = valuesOf k pairs := by
  rw [valuesOf, valuesOf, List.filter_filter]
  refine congrArg _ (List.filter_congr fun p _ => ?_)
  by_cases hp : p.1 = k
  · simp [isOther, hp, hid, hlogs]
  · simp [hp]

/-- The other fields have the last values that they are given. -/
lemma Holds.mem_definition_iff (h : Holds pairs schedule) {k : String} {v : Value} :
    (k, v) ∈ schedule.definition ↔
      k ≠ "Id" ∧ k ≠ "CollectLogs" ∧ (valuesOf k pairs).getLast? = some v := by
  constructor
  · intro hm
    have hother := (List.mem_filter.mp (h.definition.mem_pairs hm)).2
    simp only [isOther, Bool.and_eq_true, decide_eq_true_eq] at hother
    refine ⟨hother.1, hother.2, ?_⟩
    rw [← valuesOf_filter_isOther hother.1 hother.2]
    exact (h.definition.mem_iff k v).mp hm
  · rintro ⟨hid, hlogs, hlast⟩
    rw [← valuesOf_filter_isOther hid hlogs] at hlast
    exact (h.definition.mem_iff k v).mpr hlast

/-! ## Encoding -/

/-- All fields of a schedule, as they are written. -/
def fields (schedule : Schedule) : List (String × Value) :=
  ("Id", .ofInt64 schedule.id) :: ("CollectLogs", .boolean schedule.collectLogs) ::
    schedule.definition

lemma write_eq (schedule : Schedule) : schedule.write = Value.write (.object schedule.fields) :=
  rfl

/-- The fields that are written are those that were given, with the flag made explicit. -/
lemma Holds.mem_fields_iff (h : Holds pairs schedule) {k : String} {v : Value} :
    (k, v) ∈ schedule.fields ↔ (valuesOf k pairs).getLast? = some v ∨
      k = "CollectLogs" ∧ v = .boolean false ∧ valuesOf k pairs = [] := by
  have hne : "Id" ≠ "CollectLogs" := by decide
  simp only [fields, List.mem_cons, Prod.mk.injEq, h.mem_definition_iff]
  by_cases hid : k = "Id"
  · subst hid
    simp [h.id, hne, eq_comm]
  · by_cases hlogs : k = "CollectLogs"
    · subst hlogs
      rcases h.collectLogs with ⟨hnone, hfalse⟩ | hone
      · simp [hnone, hfalse, hid]
      · simp [hone, hid, eq_comm]
    · simp [hid, hlogs]

lemma nodup_fields (sorted : (schedule.definition.map Prod.fst).Pairwise (· < ·))
    (hnames : ∀ f ∈ schedule.definition, f.1 ≠ "Id" ∧ f.1 ≠ "CollectLogs") :
    (schedule.fields.map Prod.fst).Nodup := by
  simp only [fields, List.map_cons, List.nodup_cons, List.mem_cons, List.mem_map, not_or,
    not_exists, not_and]
  exact ⟨⟨by decide, fun f hf => (hnames f hf).1⟩, fun f hf => (hnames f hf).2, nodup_names sorted⟩

/-- The fields of a schedule hold it. -/
lemma holds_fields (sorted : (schedule.definition.map Prod.fst).Pairwise (· < ·))
    (hnames : ∀ f ∈ schedule.definition, f.1 ≠ "Id" ∧ f.1 ≠ "CollectLogs") :
    Holds schedule.fields schedule := by
  have hother : schedule.fields.filter isOther = schedule.definition := by
    rw [fields, List.filter_cons_of_neg (by simp [isOther]),
      List.filter_cons_of_neg (by simp [isOther])]
    exact List.filter_eq_self.mpr fun f hf => by simp [isOther, hnames f hf]
  refine ⟨?_, .inr ?_, ?_⟩
  · rw [fields, valuesOf_cons_self, valuesOf_cons_of_ne (by decide),
      valuesOf_eq_nil fun f hf => (hnames f hf).1]
  · rw [fields, valuesOf_cons_of_ne (by decide), valuesOf_cons_self,
      valuesOf_eq_nil fun f hf => (hnames f hf).2]
  · rw [hother]
    exact keeps_self sorted

/-- A schedule without doubles is written as an object of its fields. -/
lemma exists_body_write (hexact : ∀ f ∈ schedule.definition, Exact f.2 ∧ depth f.2 ≤ room) :
    ∃ body : Body room, body.bytes = encoded schedule.write ∧ body.pairs = schedule.fields := by
  rw [write_eq]
  refine exists_body fun f hf => ?_
  rcases List.mem_cons.mp hf with rfl | hf
  · exact denotes_int room schedule.id.toInt _
  · rcases List.mem_cons.mp hf with rfl | hf
    · exact denotes_boolean room schedule.collectLogs
    · exact (hexact f hf).1.denotes (hexact f hf).2

/-- A written schedule is taken back. -/
theorem takes_write (sorted : (schedule.definition.map Prod.fst).Pairwise (· < ·))
    (hnames : ∀ f ∈ schedule.definition, f.1 ≠ "Id" ∧ f.1 ≠ "CollectLogs")
    (hexact : ∀ f ∈ schedule.definition, Exact f.2 ∧ depth f.2 ≤ room) :
    Takes (read (room + 1)) (encoded schedule.write) (some schedule) := by
  obtain ⟨body, hbytes, hpairs⟩ := exists_body_write hexact
  have htakes := takes_body body
  rwa [hbytes, hpairs, bind_ofDraft?_eq_some_iff.mpr (holds_fields sorted hnames)] at htakes

/-! ## Decoding and encoding again -/

/-- What a schedule has of the object that it was decoded from, and what it is written as. -/
structure Faithful (body : Body room) (schedule : Schedule) : Prop where
  id : valuesOf "Id" body.pairs = [.ofInt64 schedule.id]
  /-- The flag is that of the object, or false if there is none. -/
  collectLogs : (valuesOf "CollectLogs" body.pairs = [] ∧ schedule.collectLogs = false) ∨
    valuesOf "CollectLogs" body.pairs = [.boolean schedule.collectLogs]
  sorted : (schedule.definition.map Prod.fst).Pairwise (· < ·)
  /-- The other names have the last values that they are given. -/
  others : ∀ k v, (k, v) ∈ schedule.definition ↔
    k ≠ "Id" ∧ k ≠ "CollectLogs" ∧ (valuesOf k body.pairs).getLast? = some v
  written : schedule.write = Value.write (.object schedule.fields)
  once : (schedule.fields.map Prod.fst).Nodup
  /-- The fields that are written are those of the object, and the flag. -/
  same : ∀ k v, (k, v) ∈ schedule.fields ↔ (valuesOf k body.pairs).getLast? = some v ∨
    k = "CollectLogs" ∧ v = .boolean false ∧ valuesOf k body.pairs = []
  /-- Without doubles, what is written is the text of an object with these fields. -/
  spelled : (∀ f ∈ schedule.definition, WithoutReals f.2) →
    ∃ written : Body room, written.bytes = encoded schedule.write ∧
      written.pairs = schedule.fields
  /-- Without doubles, what is written is decoded to the same schedule. -/
  again : (∀ f ∈ schedule.definition, WithoutReals f.2) →
    (read (room + 1)).whole (utf8 (String.ofList schedule.write)) = .ok schedule

/-- The other fields of a decoded schedule fit where they were read, if no doubles are in them. -/
lemma Holds.exact {body : Body room} (h : Holds body.pairs schedule)
    (hreals : ∀ f ∈ schedule.definition, WithoutReals f.2) :
    ∀ f ∈ schedule.definition, Exact f.2 ∧ depth f.2 ≤ room := by
  intro f hf
  have hpair := (List.mem_filter.mp (h.definition.mem_pairs hf)).1
  obtain ⟨t, ht⟩ := body.exists_of_mem_pairs hpair
  exact ht.exact (hreals f hf)

/-- The text of an object is decoded as a schedule exactly if it has one `Id`, a signed number of
64 bits, and at most one `CollectLogs`, a truth value; and then nothing of it is lost, neither in
the schedule nor in what is written for it. -/
theorem decode_faithful (body : Body room) (before after : Blanks) :
    ((∃ schedule,
        (read (room + 1)).whole (before.bytes ++ (body.bytes ++ after.bytes)) = .ok schedule) ↔
      (∃ i, valuesOf "Id" body.pairs = [.ofInt64 i]) ∧
        (valuesOf "CollectLogs" body.pairs = [] ∨
          ∃ b, valuesOf "CollectLogs" body.pairs = [.boolean b])) ∧
    ∀ schedule,
      (read (room + 1)).whole (before.bytes ++ (body.bytes ++ after.bytes)) = .ok schedule →
        Faithful body schedule := by
  simp only [whole_eq_ok_iff]
  refine ⟨exists_holds_iff, fun schedule h => ?_⟩
  have hnames : ∀ f ∈ schedule.definition, f.1 ≠ "Id" ∧ f.1 ≠ "CollectLogs" := fun f hf =>
    have hf := h.mem_definition_iff.mp hf
    ⟨hf.1, hf.2.1⟩
  have hsorted := h.definition.sorted
  exact {
    id := h.id
    collectLogs := h.collectLogs
    sorted := hsorted
    others := fun k v => h.mem_definition_iff
    written := write_eq schedule
    once := nodup_fields hsorted hnames
    same := fun k v => h.mem_fields_iff
    spelled := fun hreals => exists_body_write (h.exact hreals)
    again := fun hreals => whole_written (takes_write hsorted hnames (h.exact hreals)) }

/-- A job in which a name is given twice. -/
def report : List (String × Value) :=
  [("Cmd", .number (.whole 1 (by decide))), ("CollectLogs", .boolean true),
    ("Cmd", .array [.object [("a", .null)]]), ("Id", .ofInt64 7)]

theorem report_decoded : ∃ (body : Body 126) (schedule : Schedule),
    body.bytes = utf8
      "\x7b\"Cmd\":1,\"CollectLogs\":true,\"Cmd\":[\x7b\"a\":null\x7d],\"Id\":7\x7d" ∧
    (read nestingRoom).whole body.bytes = .ok schedule ∧
    schedule.id = 7 ∧ schedule.collectLogs = true ∧
    ("Cmd", .array [.object [("a", .null)]]) ∈ schedule.definition ∧
    (read nestingRoom).whole (utf8 (String.ofList schedule.write)) = .ok schedule := by
  have hexact : ∀ f ∈ report, Exact f.2 ∧ depth f.2 ≤ 126 := by
    intro f hf
    simp only [report, List.mem_cons, List.not_mem_nil, or_false] at hf
    rcases hf with rfl | rfl | rfl | rfl
    · exact ⟨.whole _ _, by decide⟩
    · exact ⟨.boolean true, by decide⟩
    · refine ⟨.array fun v hv => ?_, by decide⟩
      obtain rfl := List.mem_singleton.mp hv
      refine .object (List.pairwise_singleton _ _) fun f hf => ?_
      obtain rfl := List.mem_singleton.mp hf
      exact .null
    · exact ⟨.whole _ _, by decide⟩
  obtain ⟨body, hbytes, hpairs⟩ := exists_body fun f hf => (hexact f hf).1.denotes (hexact f hf).2
  have halone : Blanks.none.bytes ++ (body.bytes ++ Blanks.none.bytes) = body.bytes :=
    List.append_nil _
  have hid : valuesOf "Id" body.pairs = [.ofInt64 7] := by
    rw [hpairs]
    rfl
  have hlogs : valuesOf "CollectLogs" body.pairs = [.boolean true] := by
    rw [hpairs]
    rfl
  obtain ⟨schedule, hdecoded⟩ := (decode_faithful body .none .none).1.mpr
    ⟨⟨7, hid⟩, .inr ⟨true, hlogs⟩⟩
  have hfaithful := (decode_faithful body .none .none).2 schedule hdecoded
  rw [halone] at hdecoded
  refine ⟨body, schedule, ?_, hdecoded, ?_, ?_, ?_, hfaithful.again fun f hf => ?_⟩
  · rw [hbytes]
    decide +kernel
  · have hsame : Value.ofInt64 schedule.id = .ofInt64 7 :=
      (List.cons.inj (hfaithful.id.symm.trans hid)).1
    exact Option.some.inj ((idOf?_eq_some_iff.mpr hsame.symm).symm.trans
      (idOf?_eq_some_iff.mpr rfl))
  · rcases hfaithful.collectLogs with ⟨hnone, -⟩ | hone
    · cases hnone.symm.trans hlogs
    · exact Value.boolean.inj (List.cons.inj (hone.symm.trans hlogs)).1
  · refine (hfaithful.others _ _).mpr ⟨by decide, by decide, ?_⟩
    rw [hpairs]
    rfl
  · have hlast := ((hfaithful.others f.1 f.2).mp hf).2.2
    have hgiven := mem_of_mem_valuesOf (List.mem_of_getLast? hlast)
    rw [hpairs] at hgiven
    exact (hexact f hgiven).1.withoutReals

end Schedule

end CheckIn
