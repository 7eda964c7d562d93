/-
# Records by their keys

A record is read into a draft that has one place for each key.  `Keyed` says so of a record once:
its fields are those of the keys, in their order, and to put a value into the place of one key
leaves the others alone.

What the reader makes of an object is then known place by place, `foldMembers_eq_some_iff`: a key
that is not there leaves its place as it was, a key that is there once fills it with what its
reader makes of the value, and a key that is there twice refuses the object.  A list is read like
the object that names its values by the first keys.
-/
import CheckIn.Proofs.Json.Skipping
import CheckIn.Json.Record

namespace CheckIn.Json
open Byte

lemma Record.read_skips {δ : Type} (record : Record δ) (room : Nat) (d : δ)
    (bytes : List UInt8) : record.read room d bytes = record.read room d (skipBlanks bytes) := by
  simp only [Record.read, skipBlanks_skipBlanks]

/-- A record whose draft has one place for each key. -/
structure Keyed (δ κ : Type) where
  record : Record δ
  name : κ → String
  Val : κ → Type
  get : (k : κ) → δ → Option (Val k)
  set : (k : κ) → Val k → δ → δ
  read : (k : κ) → (room : Nat) → Reader (Val k)
  /-- The keys in the order of declaration. -/
  all : List κ
  fields_eq : record.fields = all.map fun k => .of (name k) (get k) (set k) (read k)
  mem_all : ∀ k, k ∈ all
  nodup_all : all.Nodup
  name_injective : ∀ {k k'}, name k = name k' → k = k'
  get_set : ∀ k v d, get k (set k v d) = some v
  get_set_of_ne : ∀ {k k'} (v : Val k) d, k' ≠ k → get k' (set k v d) = get k' d
  ext : ∀ {d d'}, (∀ k, get k d = get k d') → d = d'

namespace Keyed

variable {δ κ : Type} (K : Keyed δ κ)

/-- The key of a name. -/
def keyOf? (n : String) : Option κ := K.all.find? fun k => K.name k = n

lemma keyOf?_name (k : κ) : K.keyOf? (K.name k) = some k := by
  rw [keyOf?, List.find?_eq_some_iff_append]
  obtain ⟨before, after, hsplit⟩ := List.append_of_mem (K.mem_all k)
  refine ⟨by simp, before, after, hsplit, fun k' hk' => ?_⟩
  have hne : k' ≠ k := by
    rintro rfl
    have := K.nodup_all
    rw [hsplit, List.nodup_append] at this
    exact this.2.2 k' hk' k' List.mem_cons_self rfl
  simp only [Bool.not_eq_true', decide_eq_false_iff_not]
  exact fun he => hne (K.name_injective he)

lemma keyOf?_eq_some {n : String} {k : κ} : K.keyOf? n = some k ↔ n = K.name k := by
  constructor
  · intro h
    have := List.find?_some h
    simpa [eq_comm] using this
  · rintro rfl
    exact K.keyOf?_name k

lemma find?_fields (n : String) : (K.record.fields.find? fun field => field.name = n) =
    (K.keyOf? n).map fun k => .of (K.name k) (K.get k) (K.set k) (K.read k) := by
  rw [K.fields_eq, List.find?_map, keyOf?]
  rfl

/-! ## One member -/

variable (result : (k : κ) → List UInt8 → Option (K.Val k))

/-- What a member makes of a draft, where `result` is what the readers make of the values. -/
def step (n : String) (v : List UInt8) (d : δ) : Option δ :=
  match K.keyOf? n with
  | some k => if (K.get k d).isSome then none else (result k v).map (K.set k · d)
  | none => some d

lemma step_name (k : κ) (v : List UInt8) (d : δ) : K.step result (K.name k) v d =
    if (K.get k d).isSome then none else (result k v).map (K.set k · d) := by
  rw [step, K.keyOf?_name]

lemma step_unknown {n : String} (h : ∀ k, n ≠ K.name k) (v : List UInt8) (d : δ) :
    K.step result n v d = some d := by
  have hn : K.keyOf? n = none := Option.eq_none_iff_forall_ne_some.2 fun k hk =>
    h k (K.keyOf?_eq_some.1 hk)
  rw [step, hn]

variable {K result}

/-- A member is read by the field of its name, or passed over. -/
lemma takes_field {room : Nat} {n : String} {v : List UInt8}
    (hskip : (∀ k, n ≠ K.name k) → Takes skipValue v (some ()))
    (hread : ∀ k, n = K.name k → Takes (K.read k room) v (result k v)) (d : δ) :
    TakesField (K.record.field room n d) v (K.step result n v d) := by
  intro before after rest hr
  cases hk : K.keyOf? n with
  | none =>
    have hn : ∀ k, n ≠ K.name k := fun k he => by
      rw [K.keyOf?_eq_some.2 he] at hk
      cases hk
    have hf : K.record.field room n d = (do separator; skipValue; return d) := by
      rw [Record.field, K.find?_fields, hk]
      rfl
    have hpass : Takes (do skipValue; return d) v ((some ()).bind fun _ => some d) :=
      (hskip hn).bind fun _ _ => rfl
    rw [hf, K.step_unknown result hn]
    exact hpass.field before after rest hr
  | some k =>
    obtain rfl := K.keyOf?_eq_some.1 hk
    rw [K.step_name]
    cases hg : (K.get k d).isSome with
    | true =>
      have hf : K.record.field room (K.name k) d = refuse (.duplicateField (K.name k)) := by
        rw [Record.field, K.find?_fields, hk]
        exact if_pos hg
      rw [hf]
      rfl
    | false =>
      have hf : K.record.field room (K.name k) d =
          (do separator; return K.set k (← K.read k room) d) := by
        rw [Record.field, K.find?_fields, hk]
        refine (if_neg ?_).trans rfl
        exact Bool.eq_false_iff.1 hg
      rw [hf]
      exact (hread k rfl).map.field before after rest hr

/-! ## Objects -/

/-- The values of a key among some members. -/
def values (name : List UInt8 → Option String) (n : String) (members : List Member) :
    List (List UInt8) :=
  members.filterMap fun m => if name m.name = some n then some m.value else none

/-- How the place of a key is filled by the values that the key has. -/
def Fills (K : Keyed δ κ) (result : (k : κ) → List UInt8 → Option (K.Val k)) (k : κ)
    (vs : List (List UInt8)) (d d' : δ) : Prop :=
  match vs with
  | [] => K.get k d' = K.get k d
  | [v] => K.get k d = none ∧ ∃ a, result k v = some a ∧ K.get k d' = some a
  | _ => False

lemma values_cons_of_ne {name : List UInt8 → Option String} {n n' : String} {m : Member}
    (hm : name m.name = some n) (h : n ≠ n') (members : List Member) :
    values name n' (m :: members) = values name n' members := by
  rw [values, List.filterMap_cons_none (by simp [hm, h])]
  rfl

lemma values_cons_self {name : List UInt8 → Option String} {n : String} {m : Member}
    (hm : name m.name = some n) (members : List Member) :
    values name n (m :: members) = m.value :: values name n members := by
  simp only [values, List.filterMap_cons, hm, if_true]

lemma fills_of_get_eq {k : κ} {vs : List (List UInt8)} {d₁ d₂ d' : δ}
    (h : K.get k d₁ = K.get k d₂) : Fills K result k vs d₁ d' ↔ Fills K result k vs d₂ d' := by
  match vs with
  | [] | [v] => simp only [Fills, h]
  | _ :: _ :: _ => exact Iff.rfl

/-- One more value for a key: it has to be the only one. -/
lemma fills_cons {k : κ} {v : List UInt8} {vs : List (List UInt8)} {d d' : δ} :
    Fills K result k (v :: vs) d d' ↔
      K.get k d = none ∧ ∃ a, result k v = some a ∧ Fills K result k vs (K.set k a d) d' := by
  match vs with
  | [] =>
    simp only [Fills, K.get_set]
  | [w] =>
    simp only [Fills, K.get_set, reduceCtorEq, false_and, and_false, exists_false]
  | _ :: _ :: _ =>
    simp only [Fills, and_false, exists_false]

/-- What an object makes of a draft, place by place. -/
theorem foldMembers_eq_some_iff (K : Keyed δ κ)
    (result : (k : κ) → List UInt8 → Option (K.Val k)) {name : List UInt8 → Option String}
    {members : List Member} (hname : ∀ m ∈ members, ∃ n, name m.name = some n) {d d' : δ} :
    foldMembers name (K.step result) members d = some d' ↔
      ∀ k, Fills K result k (values name (K.name k) members) d d' := by
  induction members generalizing d with
  | nil =>
    constructor
    · rintro h k
      obtain rfl := Option.some.inj h
      exact rfl
    · exact fun h => congrArg some (K.ext fun k => (h k).symm)
  | cons m members ih =>
    obtain ⟨n, hn⟩ := hname m List.mem_cons_self
    have ih := fun {d} => ih (d := d) fun m' hm' => hname m' (List.mem_cons_of_mem m hm')
    rw [foldMembers_cons, hn, Option.bind_some]
    by_cases hk : ∃ k, n = K.name k
    · obtain ⟨k, rfl⟩ := hk
      -- the place of this key is filled by the member, the others by the members after it
      have hother : ∀ {a : K.Val k} {k'}, k' ≠ k →
          (Fills K result k' (values name (K.name k') members) (K.set k a d) d' ↔
            Fills K result k' (values name (K.name k') (m :: members)) d d') := by
        intro a k' hne
        rw [values_cons_of_ne hn fun he => hne (K.name_injective he).symm]
        exact fills_of_get_eq (K.get_set_of_ne a d hne)
      rw [K.step_name]
      constructor
      · intro h
        split at h
        · cases h
        · next hg =>
          have hg : K.get k d = none := by simpa using hg
          obtain ⟨s, hs, hrest⟩ := Option.bind_eq_some_iff.1 h
          obtain ⟨a, ha, rfl⟩ := Option.map_eq_some_iff.1 hs
          intro k'
          by_cases hne : k' = k
          · subst hne
            rw [values_cons_self hn, fills_cons]
            exact ⟨hg, a, ha, ih.1 hrest k'⟩
          · exact (hother hne).1 (ih.1 hrest k')
      · intro h
        have hself := h k
        rw [values_cons_self hn, fills_cons] at hself
        obtain ⟨hg, a, ha, hrest⟩ := hself
        rw [if_neg (by simp [hg]), ha, Option.map_some, Option.bind_some, ih]
        intro k'
        by_cases hne : k' = k
        · subst hne
          exact hrest
        · exact (hother hne).2 (h k')
    · have hn' : ∀ k, n ≠ K.name k := fun k he => hk ⟨k, he⟩
      rw [K.step_unknown result hn', Option.bind_some, ih]
      refine forall_congr' fun k => ?_
      rw [values_cons_of_ne hn (hn' k)]

/-- An object is read by its members. -/
theorem takes_object (K : Keyed δ κ) (result : (k : κ) → List UInt8 → Option (K.Val k))
    (room : Nat) {gap : Blanks} {members : List Member} {name : List UInt8 → Option String} (d : δ)
    (hname : ∀ m ∈ members, Names m.name (name m.name))
    (hskip : ∀ m ∈ members, ∀ n, name m.name = some n → (∀ k, n ≠ K.name k) →
      Takes skipValue m.value (some ()))
    (hread : ∀ m ∈ members, ∀ k, name m.name = some (K.name k) →
      Takes (K.read k room) m.value (result k m.value)) :
    Takes (K.record.read (room + 1) d) (objectBytes gap members)
      (foldMembers name (K.step result) members d) := by
  refine .of_opens ⟨openBrace, _, rfl, by decide, by decide, by decide⟩
    (K.record.read_skips (room + 1) d) fun rest hr => ?_
  have h := object_content (K.record.field room) name (K.step result) gap rest d hname
    fun m hm n hn d => takes_field (hskip m hm n hn) (fun k hk => hread m hm k (hk ▸ hn)) d
  rw [← h]
  simp only [objectBytes, List.cons_append, List.append_assoc, List.nil_append]
  rfl

/-! ## Lists -/

/-- What the values of a list make of a draft, given to the keys in their order. -/
def stepList (K : Keyed δ κ) (result : (k : κ) → List UInt8 → Option (K.Val k)) :
    List κ → List (List UInt8) → δ → Option δ
  | [], [], d => some d
  | [], _ :: _, _ => none
  | _ :: _, [], d => if K.record.allInList then none else some d
  | k :: ks, v :: vs, d => (result k v).bind fun a => stepList K result ks vs (K.set k a d)

/-- A list that goes on is not closed. -/
lemma closeList_item (first : Bool) (gap : Blanks) {item : Item} (h : Opens item.value)
    (items : List Item) (rest : List UInt8) :
    (closeList (gap.bytes ++
      (content first ((item :: items).map Item.bytes) ++ rest))).toOption = none := by
  have hother : ∀ {b bytes more}, skipBlanks bytes = b :: more → b ≠ closeBracket →
      (closeList bytes).toOption = none := by
    intro b bytes more hs hb
    rw [closeList, hs]
    split
    · next he => cases he
    · next he => exact absurd (List.cons.inj he).1 hb
    · split <;> rfl
    · rfl
  obtain ⟨b, more, hv, hb, hc, -⟩ := h
  cases first with
  | true =>
    have hs : skipBlanks (gap.bytes ++ (content true ((item :: items).map Item.bytes) ++ rest)) =
        b :: (more ++ (item.after.bytes ++ (content false (items.map Item.bytes) ++ rest))) := by
      rw [skipBlanks_append, List.map_cons, content, if_pos rfl, List.nil_append, Item.bytes, hv]
      simp only [List.append_assoc, skipBlanks_append, List.cons_append, skipBlanks_cons hb]
    exact hother hs hc
  | false =>
    have hs : skipBlanks (gap.bytes ++ (content false ((item :: items).map Item.bytes) ++ rest)) =
        comma :: (item.bytes ++ content false (items.map Item.bytes) ++ rest) := by
      rw [skipBlanks_append]
      exact skipBlanks_cons rfl _
    exact hother hs (by decide)

lemma fromList_end {record : Record δ} (h : record.allInList = false) {room index : Nat}
    {bytes rest : List UInt8} (hn : nextItem (decide (index = 0)) bytes = .ok (false, rest))
    (field : Field δ) (fields : List (Field δ)) (d : δ) :
    record.fromList room index (field :: fields) d bytes = .ok (d, rest) := by
  rw [Record.fromList, bind_apply_of_ok hn, if_neg Bool.false_ne_true, h,
    if_neg Bool.false_ne_true, pure_apply]

lemma fromList_short {record : Record δ} (h : record.allInList = true) {room index : Nat}
    {bytes rest : List UInt8} (hn : nextItem (decide (index = 0)) bytes = .ok (false, rest))
    (field : Field δ) (fields : List (Field δ)) (d : δ) :
    (record.fromList room index (field :: fields) d bytes).toOption = none := by
  rw [Record.fromList, bind_apply_of_ok hn, if_neg Bool.false_ne_true, if_pos h]
  rfl

lemma fromList_item {β : Type} {record : Record δ} {room index : Nat}
    {bytes rest : List UInt8} (hn : nextItem (decide (index = 0)) bytes = .ok (true, rest))
    (field : Field δ) (fields : List (Field δ)) (d : δ) (next : δ → Reader β) :
    (record.fromList room index (field :: fields) d >>= next) bytes =
      (field.read room d >>= fun d =>
        record.fromList room (index + 1) fields d >>= next) rest := by
  rw [Record.fromList, bind_assoc, bind_apply_of_ok hn, if_pos rfl, bind_assoc]

/-- Reading a field and going on with the draft. -/
lemma read_of_bind {α β : Type} {name : String} {get : δ → Option α} {set : α → δ → δ}
    {read : Nat → Reader α} {room : Nat} {d : δ} {next : δ → Reader β} :
    ((Field.of name get set read).read room d >>= next) =
      (read room >>= fun a => next (set a d)) := by
  show (read room >>= fun a => pure (set a d)) >>= next = _
  rw [bind_assoc]
  rfl

/-- The values of a list, each read by the field of its key, up to the end of the list. -/
lemma fromList_content {room : Nat} : ∀ (ks : List κ) (items : List Item) (index : Nat)
    (gap : Blanks) (rest : List UInt8) (d : δ), (∀ item ∈ items, Opens item.value) →
    (∀ item ∈ items, ∀ k, Takes (K.read k room) item.value (result k item.value)) →
    ((K.record.fromList room index
        (ks.map fun k => .of (K.name k) (K.get k) (K.set k) (K.read k)) d >>= fun d => do
          closeList
          return d)
      (gap.bytes ++ (content (decide (index = 0)) (items.map Item.bytes) ++
        closeBracket :: rest))).toOption =
      (stepList K result ks (items.map Item.value) d).map (·, rest)
  | [], [], index, gap, rest, d, _, _ => by
    show ((closeList >>= fun _ => pure d) (gap.bytes ++ closeBracket :: rest)).toOption = _
    rw [bind_apply_of_ok (closeList_close gap rest)]
    rfl
  | [], item :: items, index, gap, rest, d, ho, _ => by
    show ((closeList >>= fun _ => pure d) _).toOption = _
    rw [toOption_bind_apply, closeList_item _ gap (ho item List.mem_cons_self)]
    rfl
  | k :: ks, [], index, gap, rest, d, _, _ => by
    have hnext := nextItem_close (decide (index = 0)) gap rest
    have hclose := closeList_close .none rest
    rw [List.map_cons, List.map_nil, content, List.nil_append, List.map_nil, stepList]
    cases hall : K.record.allInList with
    | true =>
      rw [toOption_bind_apply, fromList_short hall hnext]
      rfl
    | false =>
      rw [bind_apply_of_ok (fromList_end hall hnext _ _ d)]
      rw [Blanks.bytes_none, List.nil_append] at hclose
      rw [bind_apply_of_ok hclose]
      rfl
  | k :: ks, item :: items, index, gap, rest, d, ho, hr => by
    have ih := fun d => fromList_content ks items (index + 1) item.after rest d
      (fun i hi => ho i (List.mem_cons_of_mem item hi))
      fun i hi => hr i (List.mem_cons_of_mem item hi)
    have hend : Ends (item.after.bytes ++ (content false (items.map Item.bytes) ++
        closeBracket :: rest)) := (ends_content (ends_closeBracket rest)).blanks item.after
    have hread := hr item List.mem_cons_self k .none _ hend
    have hnext := nextItem_item (decide (index = 0)) gap (ho item List.mem_cons_self) items
      (closeBracket :: rest)
    rw [Blanks.bytes_none, List.nil_append] at hread
    rw [List.map_cons, fromList_item hnext]
    rw [read_of_bind, toOption_bind_apply, hread, List.map_cons, stepList]
    cases result k item.value with
    | none => rfl
    | some a => exact ih (K.set k a d)

/-- A list is read by its values. -/
theorem takes_list (K : Keyed δ κ) (result : (k : κ) → List UInt8 → Option (K.Val k))
    (room : Nat) {gap : Blanks} {items : List Item} (d : δ)
    (ho : ∀ item ∈ items, Opens item.value)
    (hr : ∀ item ∈ items, ∀ k, Takes (K.read k room) item.value (result k item.value)) :
    Takes (K.record.read (room + 1) d) (listBytes gap items)
      (stepList K result K.all (items.map Item.value) d) := by
  refine .of_opens ⟨openBracket, _, rfl, by decide, by decide, by decide⟩
    (K.record.read_skips (room + 1) d) fun rest _ => ?_
  have h := fromList_content K.all items 0 gap rest d ho hr
  rw [← K.fields_eq] at h
  rw [← h]
  simp only [listBytes, List.cons_append, List.append_assoc, List.nil_append]
  rfl

lemma read_other {record : Record δ} {b : UInt8} (hb : isBlank b = false)
    (hl : b ≠ openBracket) (ho : b ≠ openBrace) (room : Nat) (d : δ) (rest : List UInt8) :
    (record.read room d (b :: rest)).toOption = none := by
  rw [Record.read, skipBlanks_cons hb]
  split
  · next he => exact absurd (List.cons.inj he).1 hl
  · next he => exact absurd (List.cons.inj he).1 ho
  · rfl

/-- What a record makes of a value does not depend on what stands around it. -/
theorem local_read (hlocal : ∀ k room v, IsValue v → Local (K.read k room) v) (room : Nat)
    (d : δ) {v : List UInt8} (hv : IsValue v) : Local (K.record.read room d) v := by
  have hskips := K.record.read_skips room d
  have hopens := hv.opens
  cases hv with
  | @members gap members names values =>
    cases room with
    | zero =>
      exact .of_settled hopens hskips ⟨none, fun rest _ => rfl⟩
    | succ room =>
      exact (K.takes_object (fun k => outcome (K.read k room)) room d
        (fun m hm => (names m hm).names) (fun m hm _ _ _ => (values m hm).takes_skipValue)
        fun m hm k _ => hlocal k room m.value (values m hm)).local
  | @array gap items values =>
    cases room with
    | zero =>
      exact .of_settled hopens hskips ⟨none, fun rest _ => rfl⟩
    | succ room =>
      exact (K.takes_list (fun k => outcome (K.read k room)) room d
        (fun item hi => (values item hi).opens)
        fun item hi k => hlocal k room item.value (values item hi)).local
  | numeral n =>
    obtain ⟨b, more, hb, hd⟩ := n.first
    have ⟨h₁, _, h₂, h₃, _⟩ := number_first hd
    refine .of_settled hopens hskips ⟨none, fun rest _ => ?_⟩
    rw [hb]
    exact read_other h₁ h₂ h₃ room d (more ++ rest)
  | null | yes | no | string => exact .of_settled hopens hskips ⟨none, fun rest _ => rfl⟩

/-- A list of more values than there are keys is refused. -/
lemma stepList_eq_none {ks : List κ} {vs : List (List UInt8)} (h : ks.length < vs.length)
    (d : δ) : stepList K result ks vs d = none := by
  induction ks generalizing vs d with
  | nil =>
    cases vs with
    | nil => exact absurd h (Nat.lt_irrefl _)
    | cons v vs => rfl
  | cons k ks ih =>
    cases vs with
    | nil => exact absurd h (by simp)
    | cons v vs =>
      have hlen : ks.length < vs.length := by simpa using h
      rw [stepList, Option.bind_eq_none_iff]
      exact fun a _ => ih hlen (K.set k a d)

/-- A list is read like the object that names its values by the first keys. -/
theorem foldMembers_eq_stepList {name : List UInt8 → Option String}
    (hall : K.record.allInList = false) {ks : List κ} {vs : List (List UInt8)}
    {members : List Member} {d : δ} (hks : ks.Nodup) (hd : ∀ k ∈ ks, K.get k d = none)
    (hlen : vs.length ≤ ks.length)
    (hm : members.map (fun m => (name m.name, m.value)) =
      (ks.zip vs).map fun kv => (some (K.name kv.1), kv.2)) :
    foldMembers name (K.step result) members d = stepList K result ks vs d := by
  induction ks generalizing vs members d with
  | nil =>
    obtain rfl := List.length_eq_zero_iff.1 (Nat.le_zero.1 hlen)
    obtain rfl := List.map_eq_nil_iff.1 hm
    rfl
  | cons k ks ih =>
    cases vs with
    | nil =>
      obtain rfl := List.map_eq_nil_iff.1 hm
      rw [stepList, hall]
      rfl
    | cons v vs =>
      cases members with
      | nil => cases hm
      | cons m members =>
        obtain ⟨hhead, htail⟩ := List.cons.inj hm
        obtain ⟨hn, rfl⟩ := Prod.mk.inj hhead
        have ⟨hk, hks⟩ := List.nodup_cons.1 hks
        have hnone : K.get k d = none := hd k List.mem_cons_self
        rw [foldMembers_cons, hn, Option.bind_some, K.step_name, if_neg (by simp [hnone]), stepList]
        cases result k m.value with
        | none => rfl
        | some a =>
          refine ih hks (fun k' hk' => ?_) (Nat.le_of_succ_le_succ hlen) htail
          have hne : k' ≠ k := fun he => hk (he ▸ hk')
          rw [K.get_set_of_ne a d hne, hd k' (List.mem_cons_of_mem k hk')]

end Keyed

end CheckIn.Json
