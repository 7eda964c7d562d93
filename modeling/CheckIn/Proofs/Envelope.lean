/-
# Answers are decoded field by field

The body of an answer is an object with six known keys.  What the agent makes of it is known key
by key: a key that is there gives what the body with this one field gives, a key that is not
there gives its default, and neither the order of the keys nor fields that nobody knows matter.
A list of values is read like the object that names them by the first keys.

`Body` and `ListBody` hold any text of an object or a list, with blanks wherever they may stand,
names spelled in any way, and values that are only known to be well formed.  A name that spells no
text, because half of a pair of units is missing, is no key; an object that has one is refused.
-/
import CheckIn.Proofs.Fields
import CheckIn.Proofs.Json.Writing

namespace CheckIn
open Json Json.Byte

namespace Response

/-! ## Bodies -/

/-- A member with the text that its name spells and a well formed value. -/
structure Entry extends Member where
  key : String
  spells : Spells name key.toList
  isValue : IsValue value

/-- A body that is an object. -/
structure Body where
  before : Blanks
  gap : Blanks
  entries : List Entry
  after : Blanks

namespace Body

def bytes (body : Body) : List UInt8 :=
  body.before.bytes ++
    (objectBytes body.gap (body.entries.map Entry.toMember) ++ body.after.bytes)

/-- The values that a key has in a body. -/
def values (body : Body) (k : Key) : List (List UInt8) :=
  body.entries.filterMap fun e => if e.key = k.name then some e.value else none

/-- The members with known keys. -/
def known (body : Body) : List (String × List UInt8) :=
  (body.entries.filter fun e => Key.all.any fun k => e.key = k.name).map fun e => (e.key, e.value)

end Body

/-- A body that is a list. -/
structure ListBody where
  before : Blanks
  gap : Blanks
  items : List Item
  isValue : ∀ item ∈ items, IsValue item.value
  after : Blanks

def ListBody.bytes (body : ListBody) : List UInt8 :=
  body.before.bytes ++ (listBytes body.gap body.items ++ body.after.bytes)

/-- The body with one field. -/
def single (k : Key) (v : List UInt8) : List UInt8 :=
  openBrace :: quote :: (utf8 k.name ++ quote :: colon :: (v ++ [closeBrace]))

/-! ## Decoding by keys -/

/-- What an answer has for a key with some values. -/
def Gives (k : Key) (vs : List (List UInt8)) (r : Response) : Prop :=
  match vs with
  | [] => k.of r = k.of {}
  | [v] => outcome (k.read 126) v = some (k.of r)
  | _ => False

lemma of_ofDraft (k : Key) (d : Draft) : k.of (ofDraft d) = (k.get d).getD (k.of {}) := by
  cases k <;> rfl

lemma ext_of {r r' : Response} (h : ∀ k : Key, k.of r = k.of r') : r = r' := by
  have h₁ : r.status = r'.status := h .status
  have h₂ : r.port = r'.port := h .port
  have h₃ : r.schedules = r'.schedules := h .schedules
  have h₄ : r.checkin = r'.checkin := h .checkin
  have h₅ : r.credentials = r'.credentials := h .credentials
  have h₆ : r.stackTargets = r'.stackTargets := h .stackTargets
  cases r
  cases r'
  simp_all

lemma Entry.names (e : Entry) : Names e.name (Text.nameOf e.name) := by
  have h := Spells.names (s := e.key) e.spells
  rwa [h.nameOf_eq]

lemma Entry.nameOf (e : Entry) : Text.nameOf e.name = some e.key :=
  (Spells.names (s := e.key) e.spells).nameOf_eq

lemma values_entries (body : Body) (k : Key) :
    Keyed.values Text.nameOf k.name (body.entries.map Entry.toMember) = body.values k := by
  rw [Keyed.values, Body.values, List.filterMap_map]
  refine List.filterMap_congr fun e _ => ?_
  simp only [Function.comp, e.nameOf, Option.some.injEq]

/-- What the body makes of an empty draft. -/
theorem toOption_ofBytes (body : Body) : (ofBytes body.bytes).toOption =
    (foldMembers Text.nameOf (keyed.step fun k => outcome (k.read 126))
      (body.entries.map Entry.toMember) {}).map ofDraft := by
  refine (Takes.map ?_).whole body.before body.after
  refine keyed.takes_object (fun k => outcome (k.read 126)) 126 {} (fun m hm => ?_)
    (fun m hm _ _ _ => ?_) fun m hm k _ => ?_
  all_goals obtain ⟨e, -, rfl⟩ := List.mem_map.1 hm
  · exact e.names
  · exact e.isValue.takes_skipValue
  · exact k.local_read 126 e.isValue

/-- The draft that has the fields of an answer at some keys. -/
def draftOf (r : Response) (given : Key → Bool) : Draft where
  status := if given .status then some r.status else none
  port := if given .port then some r.port else none
  schedules := if given .schedules then some r.schedules else none
  checkin := if given .checkin then some r.checkin else none
  credentials := if given .credentials then some r.credentials else none
  stackTargets := if given .stackTargets then some r.stackTargets else none

lemma get_draftOf (r : Response) (given : Key → Bool) (k : Key) :
    k.get (draftOf r given) = if given k then some (k.of r) else none := by
  cases k <;> rfl

/-- A body is decoded to the answer that has, for each key, what its values give. -/
theorem ofBytes_eq_ok_iff (body : Body) (r : Response) :
    ofBytes body.bytes = .ok r ↔ ∀ k, Gives k (body.values k) r := by
  have hname : ∀ m ∈ body.entries.map Entry.toMember, ∃ n, Text.nameOf m.name = some n := by
    intro m hm
    obtain ⟨e, -, rfl⟩ := List.mem_map.1 hm
    exact ⟨e.key, e.nameOf⟩
  have hfold : ∀ d, foldMembers Text.nameOf (keyed.step fun k => outcome (k.read 126))
      (body.entries.map Entry.toMember) {} = some d ↔ _ := fun d =>
    keyed.foldMembers_eq_some_iff (fun k => outcome (k.read 126)) hname
  rw [← toOption_eq_some_iff, toOption_ofBytes, Option.map_eq_some_iff]
  constructor
  · rintro ⟨d, hd, rfl⟩ k
    have hk := (hfold d).1 hd k
    rw [show keyed.name k = k.name from rfl, values_entries] at hk
    unfold Gives
    rw [of_ofDraft]
    revert hk
    match body.values k with
    | [] =>
      intro hk
      have hnone : k.get d = none := hk.trans (by cases k <;> rfl)
      rw [hnone, Option.getD_none]
    | [v] =>
      rintro ⟨-, (a : k.Val), ha, hd⟩
      have hsome : k.get d = some a := hd
      show outcome (k.read 126) v = some ((k.get d).getD (k.of {}))
      rw [hsome]
      exact ha
    | _ :: _ :: _ => exact id
  · intro h
    refine ⟨draftOf r fun k => !(body.values k).isEmpty, (hfold _).2 fun k => ?_,
      ext_of fun k => ?_⟩
    · have hk := h k
      have hget := get_draftOf r (fun k => !(body.values k).isEmpty) k
      rw [show keyed.name k = k.name from rfl, values_entries]
      revert hk hget
      match body.values k with
      | [] => exact fun _ hget => hget.trans (by cases k <;> rfl)
      | [v] => exact fun hk hget => ⟨by cases k <;> rfl, k.of r, hk, hget⟩
      | _ :: _ :: _ => exact fun hk _ => hk
    · have hk := h k
      rw [of_ofDraft, get_draftOf]
      revert hk
      match body.values k with
      | [] => exact fun hk => hk.symm
      | [v] => exact fun _ => rfl
      | _ :: _ :: _ => exact False.elim

/-- What the list makes of an empty draft. -/
theorem toOption_ofBytes_list (list : ListBody) : (ofBytes list.bytes).toOption =
    (keyed.stepList (fun k => outcome (k.read 126)) Key.all
      (list.items.map Item.value) {}).map ofDraft :=
  (Takes.map (keyed.takes_list (fun k => outcome (k.read 126)) 126 {}
    (fun item hi => (list.isValue item hi).opens)
    fun item hi k => k.local_read 126 (list.isValue item hi))).whole list.before list.after

/-- A list is decoded like the object that names its values by the first keys. -/
lemma toOption_ofBytes_pairs {list : ListBody} {body : Body} (hlen : list.items.length ≤ 6)
    (hpairs : body.entries.map (fun e => (e.key, e.value)) =
      (Key.all.map Key.name).zip (list.items.map Item.value)) :
    (ofBytes list.bytes).toOption = (ofBytes body.bytes).toOption := by
  rw [toOption_ofBytes_list, toOption_ofBytes]
  refine congrArg _ (Keyed.foldMembers_eq_stepList rfl keyed.nodup_all
    (fun k _ => by cases k <;> rfl) ?_ ?_).symm
  · rw [List.length_map]
    exact hlen
  · rw [List.zip_map_left] at hpairs
    have := congrArg (List.map fun p : String × List UInt8 => (some p.1, p.2)) hpairs
    rw [List.map_map, List.map_map] at this
    rw [List.map_map]
    refine (List.map_congr_left fun e _ => ?_).trans this
    simp only [Function.comp, e.nameOf]

lemma isValue_of_mem_values {body : Body} {k : Key} {v : List UInt8}
    (h : v ∈ body.values k) : IsValue v := by
  obtain ⟨e, -, he⟩ := List.mem_filterMap.1 h
  split at he
  · rw [← Option.some.inj he]
    exact e.isValue
  · cases he

/-! ## One field -/

/-- The body with one field and no blanks. -/
def Body.one (k : Key) {v : List UInt8} (hv : IsValue v) : Body where
  before := .none
  gap := .none
  entries := [{
    before := .none
    name := utf8 k.name
    beforeColon := .none
    afterColon := .none
    value := v
    after := .none
    key := k.name
    spells := spells_self (by cases k <;> decide)
    isValue := hv }]
  after := .none

lemma bytes_one (k : Key) {v : List UInt8} (hv : IsValue v) :
    (Body.one k hv).bytes = single k v := by
  simp [Body.one, Body.bytes, objectBytes, content, Member.bytes, Member.tail, single]

lemma values_one (k k' : Key) {v : List UInt8} (hv : IsValue v) :
    (Body.one k hv).values k' = if k = k' then [v] else [] := by
  by_cases h : k = k'
  · subst h
    simp [Body.one, Body.values]
  · have hne : k.name ≠ k'.name := fun he => h (keyed.name_injective he)
    simp [Body.one, Body.values, hne, h]

/-- What the body with one field is decoded to. -/
lemma ofBytes_single {k : Key} {v : List UInt8} (hv : IsValue v) (r : Response) :
    ofBytes (single k v) = .ok r ↔
      outcome (k.read 126) v = some (k.of r) ∧ ∀ k' ≠ k, k'.of r = k'.of {} := by
  rw [← bytes_one k hv, ofBytes_eq_ok_iff]
  constructor
  · intro h
    refine ⟨?_, fun k' hne => ?_⟩
    · have := h k
      rwa [values_one, if_pos rfl] at this
    · have := h k'
      rwa [values_one, if_neg hne.symm] at this
  · rintro ⟨hself, hother⟩ k'
    rw [values_one]
    by_cases h : k = k'
    · subst h
      rwa [if_pos rfl]
    · rw [if_neg h]
      exact hother k' fun he => h he.symm

lemma exists_ofBytes_single {k : Key} {v : List UInt8} (hv : IsValue v) {a : k.Val}
    (h : outcome (k.read 126) v = some a) :
    ∃ r, ofBytes (single k v) = .ok r ∧ k.of r = a := by
  have hself : k.of (ofDraft (k.set a {})) = a := by
    rw [of_ofDraft, show k.get (k.set a {}) = some a from keyed.get_set k a {}]
    rfl
  refine ⟨ofDraft (k.set a {}), (ofBytes_single hv _).2 ⟨by rw [h, hself], fun k' hne => ?_⟩, hself⟩
  rw [of_ofDraft, show k'.get (k.set a {}) = k'.get {} from keyed.get_set_of_ne a {} hne]
  cases k' <;> rfl

/-- The answer with given fields. -/
def ofFields (f : (k : Key) → k.Val) : Response where
  status := f .status
  port := f .port
  schedules := f .schedules
  checkin := f .checkin
  credentials := f .credentials
  stackTargets := f .stackTargets

lemma of_ofFields (f : (k : Key) → k.Val) (k : Key) : k.of (ofFields f) = f k := by
  cases k <;> rfl

/-- A body in which no known key occurs twice is decoded if each of its fields is. -/
theorem exists_ofBytes {body : Body} (hone : ∀ k, (body.values k).length ≤ 1)
    (h : ∀ k, ∀ v ∈ body.values k, ∃ r, ofBytes (single k v) = .ok r) :
    ∃ r, ofBytes body.bytes = .ok r := by
  have hfield : ∀ k : Key, ∃ a : k.Val, ∀ r : Response, k.of r = a → Gives k (body.values k) r := by
    intro k
    have hlen := hone k
    have hsome := h k
    have hval : ∀ v ∈ body.values k, IsValue v := fun v => isValue_of_mem_values
    revert hlen hsome hval
    match body.values k with
    | [] => exact fun _ _ _ => ⟨k.of {}, fun _ hr => hr⟩
    | [v] =>
      intro _ hsome hval
      obtain ⟨one, hone⟩ := hsome v List.mem_cons_self
      have hv := hval v List.mem_cons_self
      exact ⟨k.of one, fun r hr => by rw [Gives, hr]; exact ((ofBytes_single hv one).1 hone).1⟩
    | _ :: _ :: _ => exact fun hlen => absurd hlen (by simp)
  refine ⟨ofFields fun k => (hfield k).choose, (ofBytes_eq_ok_iff body _).2 fun k => ?_⟩
  exact (hfield k).choose_spec _ (of_ofFields _ k)

/-- What a decoded body has for each key. -/
theorem of_of_ofBytes {body : Body} {r : Response} (h : ofBytes body.bytes = .ok r) (k : Key) :
    (body.values k = [] → k.of r = k.of {}) ∧
      ∀ v ∈ body.values k, ∃ one, ofBytes (single k v) = .ok one ∧ k.of r = k.of one := by
  have hk := (ofBytes_eq_ok_iff body r).1 h k
  have hval : ∀ v ∈ body.values k, IsValue v := fun v => isValue_of_mem_values
  revert hk hval
  match body.values k with
  | [] => exact fun hk _ => ⟨fun _ => hk, by simp⟩
  | [v] =>
    intro hk hval
    obtain ⟨one, hone, hof⟩ := exists_ofBytes_single (hval v List.mem_cons_self) hk
    refine ⟨by simp, fun w hw => ?_⟩
    obtain rfl := List.mem_singleton.1 hw
    exact ⟨one, hone, hof.symm⟩
  | _ :: _ :: _ => exact fun hk => hk.elim

/-- A known key that occurs twice refuses the body. -/
theorem ofBytes_eq_error {body : Body} {k : Key} (h : 2 ≤ (body.values k).length) :
    ∃ e, ofBytes body.bytes = .error e := by
  cases hr : ofBytes body.bytes with
  | error e => exact ⟨e, rfl⟩
  | ok r =>
    have hk := (ofBytes_eq_ok_iff body r).1 hr k
    revert hk h
    match body.values k with
    | [] | [_] => exact fun h => absurd h (by simp)
    | _ :: _ :: _ => exact fun _ hk => hk.elim

/-- Only the known members matter, and not their order. -/
theorem ofBytes_congr {body body' : Body} (hone : ∀ k, (body.values k).length ≤ 1)
    (h : body.known.Perm body'.known) (r : Response) :
    ofBytes body.bytes = .ok r ↔ ofBytes body'.bytes = .ok r := by
  have hvalues : ∀ (b : Body) k, b.values k =
      b.known.filterMap fun p => if p.1 = k.name then some p.2 else none := by
    intro b k
    rw [Body.known, List.filterMap_map, List.filterMap_filter, Body.values]
    refine List.filterMap_congr fun e _ => ?_
    by_cases hk : e.key = k.name
    · have hany : (Key.all.any fun k => decide (e.key = k.name)) = true :=
        List.any_eq_true.2 ⟨k, keyed.mem_all k, by simpa using hk⟩
      rw [if_pos hany]
      rfl
    · simp [hk]
  have heq : ∀ k, body.values k = body'.values k := by
    intro k
    have hperm : (body.values k).Perm (body'.values k) := by
      rw [hvalues, hvalues]
      exact h.filterMap _
    have hlen := hone k
    revert hperm hlen
    match body.values k with
    | [] => exact fun hp _ => hp.nil_eq
    | [v] => exact fun hp _ => (List.singleton_perm.1 hp)
    | _ :: _ :: _ => exact fun _ hlen => absurd hlen (by simp)
  rw [ofBytes_eq_ok_iff, ofBytes_eq_ok_iff]
  exact forall_congr' fun k => by rw [heq]

lemma isValue_nil (gap : Blanks) : IsValue (listBytes gap []) := .array (by simp)

/-- An empty list of stacks is read as such. -/
lemma outcome_stacks_nil (gap : Blanks) :
    outcome (Key.stackTargets.read 126) (listBytes gap []) = some (some []) := by
  have hv := isValue_nil gap
  have hlist : Takes (sequence 126 StackTarget.read) (listBytes gap []) (some []) :=
    takes_sequence (outcome (StackTarget.read 125)) (by simp)
  have hne : listBytes gap [] ≠ utf8 "null" := fun he =>
    absurd (List.cons.inj he).1 (show openBracket ≠ lowerN by decide)
  have h := hv.takes_optional hlist
  rw [if_neg hne] at h
  exact h.outcome_eq

/-- No stacks are not the same as an empty list of them. -/
lemma stackTargets_of_ofBytes {body : Body} {r : Response} (h : ofBytes body.bytes = .ok r) :
    (r.stackTargets = none ↔
      body.values .stackTargets = [] ∨ body.values .stackTargets = [utf8 "null"]) ∧
    ∀ gap, body.values .stackTargets = [listBytes gap []] → r.stackTargets = some [] := by
  have hk : Gives .stackTargets (body.values .stackTargets) r :=
    (ofBytes_eq_ok_iff body r).1 h .stackTargets
  have hval : ∀ v ∈ body.values .stackTargets, IsValue v := fun v => isValue_of_mem_values
  revert hk hval
  match body.values .stackTargets with
  | [] => exact fun hk _ => ⟨⟨fun _ => .inl rfl, fun _ => hk⟩, by simp⟩
  | [v] =>
    intro hk hval
    have hv := hval v List.mem_cons_self
    -- either `null`, or what the list of the targets is read as
    have hread : outcome (optional (sequence 126 StackTarget.read)) v = some r.stackTargets := hk
    rw [(hv.takes_optional (hv.local_sequence (fun room _ => StackTarget.local_read room)
      126)).outcome_eq] at hread
    refine ⟨⟨fun hnone => ?_, ?_⟩, fun gap hgap => ?_⟩
    · by_cases hnull : v = utf8 "null"
      · exact .inr (by rw [hnull])
      · rw [if_neg hnull, hnone, Option.map_eq_some_iff] at hread
        obtain ⟨a, -, ha⟩ := hread
        cases ha
    · rintro (hnil | hnull)
      · cases hnil
      · obtain ⟨rfl, -⟩ := List.cons.inj hnull
        rw [if_pos rfl] at hread
        exact (Option.some.inj hread).symm
    · obtain ⟨rfl, -⟩ := List.cons.inj hgap
      exact Option.some.inj (hk.symm.trans (outcome_stacks_nil gap))
  | _ :: _ :: _ => exact fun hk => hk.elim

/-! ## The envelope -/

/-- Decoding is compositional.  A body in which each known key occurs at most once is decoded
exactly if the body with each of its known fields alone is, and has what these have, and the
defaults elsewhere; so only the known members matter, and not their order.  A known key that
occurs twice refuses the body.  A list of at most six values is decoded like the object that
names them in the order of declaration, and a longer one is refused. -/
theorem decoding_is_fieldwise :
    (∀ body : Body, (∀ k, (body.values k).length ≤ 1) →
      ((∃ r, ofBytes body.bytes = .ok r) ↔
        ∀ k, ∀ v ∈ body.values k, ∃ r, ofBytes (single k v) = .ok r) ∧
      ∀ r, ofBytes body.bytes = .ok r → ∀ k,
        (body.values k = [] → k.of r = k.of {}) ∧
        ∀ v ∈ body.values k, ∃ one, ofBytes (single k v) = .ok one ∧ k.of r = k.of one) ∧
    (∀ body body' : Body, (∀ k, (body.values k).length ≤ 1) → body.known.Perm body'.known →
      ∀ r, ofBytes body.bytes = .ok r ↔ ofBytes body'.bytes = .ok r) ∧
    (∀ body : Body, ∀ r, ofBytes body.bytes = .ok r →
      (r.stackTargets = none ↔
        body.values .stackTargets = [] ∨ body.values .stackTargets = [utf8 "null"]) ∧
      ∀ gap, body.values .stackTargets = [listBytes gap []] → r.stackTargets = some []) ∧
    (∀ body : Body, ∀ k, 2 ≤ (body.values k).length → ∃ e, ofBytes body.bytes = .error e) ∧
    (∀ (list : ListBody) (body : Body), list.items.length ≤ 6 →
      body.entries.map (fun e => (e.key, e.value)) =
        (Key.all.map Key.name).zip (list.items.map Item.value) →
      ∀ r, ofBytes list.bytes = .ok r ↔ ofBytes body.bytes = .ok r) ∧
    (∀ list : ListBody, 6 < list.items.length → ∃ e, ofBytes list.bytes = .error e) := by
  refine ⟨fun body hone => ⟨⟨?_, exists_ofBytes hone⟩, fun r hr k => of_of_ofBytes hr k⟩,
    fun body body' hone h => ofBytes_congr hone h,
    fun body r hr => stackTargets_of_ofBytes hr,
    fun body k h => ofBytes_eq_error h,
    fun list body hlen hpairs r => ?_, fun list hlen => ?_⟩
  · rintro ⟨r, hr⟩ k v hv
    obtain ⟨one, hone, -⟩ := (of_of_ofBytes hr k).2 v hv
    exact ⟨one, hone⟩
  · rw [← toOption_eq_some_iff, toOption_ofBytes_pairs hlen hpairs, toOption_eq_some_iff]
  · have hnone : (ofBytes list.bytes).toOption = none := by
      rw [toOption_ofBytes_list, Keyed.stepList_eq_none (by rw [List.length_map]; exact hlen)]
      rfl
    cases hr : ofBytes list.bytes with
    | error e => exact ⟨e, rfl⟩
    | ok r =>
      rw [hr] at hnone
      cases hnone

/-- A member without blanks. -/
def Entry.plain {spelling : List UInt8} {key : String} (spells : Spells spelling key.toList)
    {v : List UInt8} (isValue : IsValue v) : Entry where
  before := .none
  name := spelling
  beforeColon := .none
  afterColon := .none
  value := v
  after := .none
  key
  spells
  isValue

/-- A number that is too large for a double. -/
def hugeNumeral : Numeral where
  negative := false
  whole := ⟨utf8 "1", by decide, List.all_eq_true.1 (by decide)⟩
  noLeadingZero _ h := absurd (List.cons.inj h).1 (by decide)
  fraction := none
  exponent := some ⟨false, none, ⟨utf8 "999", by decide, List.all_eq_true.1 (by decide)⟩⟩

/-- The name of the status with its third letter written as a unit. -/
lemma spells_status : Spells (utf8 "st\\u0061tus") "status".toList :=
  .plain (c := 's') (by decide) (by decide) (by decide)
    (.plain (c := 't') (by decide) (by decide) (by decide)
      (.unit (show hexValue4? 0x30 0x30 0x36 0x31 = some 0x61 by decide) (by decide)
        (spells_self (s := "tus".toList) (by decide))))

/-- A body with an unknown key that occurs twice, once with a number too large to be kept. -/
def mixedBody : Body where
  before := .none
  gap := ⟨utf8 " \n", List.all_eq_true.1 (by decide)⟩
  entries := [
    .plain (spells_self (s := "more".toList) (by decide)) (.numeral hugeNumeral),
    .plain (spells_self (s := "stacks".toList) (by decide)) (isValue_nil .none),
    .plain spells_status (isValue_text "IDLE"),
    .plain (spells_self (s := "more".toList) (by decide)) .null]
  after := .none

/-- The same without the unknown fields, and the others the other way round. -/
def turnedBody : Body :=
  { mixedBody with
    entries := (mixedBody.entries.filter fun e => e.key ≠ "more").reverse }

/-- The same with the status a second time. -/
def doubledBody : Body :=
  { mixedBody with
    entries := .plain (spells_self (s := "status".toList) (by decide)) .null :: mixedBody.entries }

/-- The body that gives the status as the first of a list. -/
def statusList : ListBody where
  before := .none
  gap := .none
  items := [⟨⟨utf8 "\t", List.all_eq_true.1 (by decide)⟩, encoded (Text.write "IDLE"), .none⟩]
  isValue item h := by
    obtain rfl := List.mem_singleton.1 h
    exact isValue_text "IDLE"
  after := .none

/-- The body that gives seven values. -/
def longList : ListBody where
  before := .none
  gap := .none
  items := List.replicate 7 ⟨.none, utf8 "null", .none⟩
  isValue item h := by
    obtain rfl := List.eq_of_mem_replicate h
    exact .null
  after := .none

theorem mixedBody_decoded :
    (∀ k, (mixedBody.values k).length ≤ 1) ∧
    (∃ r, ofBytes mixedBody.bytes = .ok r ∧ r.status = .idle ∧ r.port = 0 ∧
      r.stackTargets = some [] ∧ ofBytes turnedBody.bytes = .ok r) ∧
    2 ≤ (doubledBody.values .status).length ∧ (∃ e, ofBytes doubledBody.bytes = .error e) ∧
    statusList.items.length ≤ 6 ∧ (∃ r, ofBytes statusList.bytes = .ok r ∧ r.status = .idle) ∧
    6 < longList.items.length ∧ ∃ e, ofBytes longList.bytes = .error e := by
  have hone : ∀ k, (mixedBody.values k).length ≤ 1 := fun k => by cases k <;> decide
  have hdoubled : 2 ≤ (doubledBody.values .status).length := by decide
  have hidle : outcome (Key.status.read 126) (encoded (Text.write "IDLE")) = some Status.idle := by
    have h := takes_status (isValue_text "IDLE") (takes_text "a string" "IDLE")
    have hne : encoded (Text.write "IDLE") ≠ utf8 "null" := by decide
    rw [if_neg hne] at h
    exact h.outcome_eq
  obtain ⟨idle, hidleBody, hidleOf⟩ :=
    exists_ofBytes_single (k := .status) (isValue_text "IDLE") hidle
  -- the known fields of the first body, each by itself
  have hsingle : ∀ k, ∀ v ∈ mixedBody.values k, ∃ r, ofBytes (single k v) = .ok r := by
    intro k v hv
    cases k with
    | status =>
      obtain rfl := List.mem_singleton.1 hv
      exact ⟨idle, hidleBody⟩
    | stackTargets =>
      obtain rfl := List.mem_singleton.1 hv
      obtain ⟨r, hr, -⟩ := exists_ofBytes_single (k := .stackTargets) (isValue_nil .none)
        (outcome_stacks_nil .none)
      exact ⟨r, hr⟩
    | port | schedules | checkin | credentials => cases hv
  obtain ⟨hbody, hcongr, hstacks, htwice, hlist, hlong⟩ := decoding_is_fieldwise
  obtain ⟨r, hr⟩ := (hbody mixedBody hone).1.2 hsingle
  have hstatus : r.status = .idle := by
    obtain ⟨r', hr', hof⟩ := ((hbody mixedBody hone).2 r hr .status).2 _ List.mem_cons_self
    obtain rfl := Except.ok.inj (hidleBody.symm.trans hr')
    exact hof.trans hidleOf
  have hport : r.port = 0 := ((hbody mixedBody hone).2 r hr .port).1 rfl
  have hpair : ofBytes statusList.bytes = .ok idle := by
    refine (hlist statusList (.one .status (isValue_text "IDLE")) (by decide) rfl idle).2 ?_
    rw [bytes_one]
    exact hidleBody
  have hturned : mixedBody.known.Perm turnedBody.known := .swap _ _ _
  exact ⟨hone, ⟨r, hr, hstatus, hport, (hstacks mixedBody r hr).2 .none rfl,
    (hcongr mixedBody turnedBody hone hturned r).1 hr⟩, hdoubled,
    htwice doubledBody .status hdoubled, by decide, ⟨idle, hpair, hidleOf⟩, by decide,
    hlong longList (by decide)⟩

end Response

end CheckIn
