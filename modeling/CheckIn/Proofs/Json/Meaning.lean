/-
# What JSON text means

The value that a text of the grammar stands for, said without a reader (`Denotes`): a string
stands for the text that it spells, a list for what its items stand for, and an object for the
last value of each of its names.  A string that spells no text, as one with half a surrogate pair,
stands for nothing, nor does a number that is too large for a double.  Only of the numbers that
are kept as doubles it is left to the reader which double that is.

The reader takes every text to the value that it stands for, if there is room for its containers.
-/
import CheckIn.Proofs.Json.Values
import Mathlib.Data.List.Nodup

namespace CheckIn.Json
open Byte

/-! ## Fields -/

section Fields

variable {α : Type} {name k : String} {a v : α} {pairs more fields other : List (String × α)}

/-- The values that a name is given, the first one first. -/
def valuesOf (k : String) (pairs : List (String × α)) : List α :=
  (pairs.filter fun p => p.1 = k).map Prod.snd

lemma valuesOf_append (k : String) (pairs more : List (String × α)) :
    valuesOf k (pairs ++ more) = valuesOf k pairs ++ valuesOf k more := by
  rw [valuesOf, List.filter_append, List.map_append]
  rfl

lemma valuesOf_cons_self (k : String) (a : α) (pairs : List (String × α)) :
    valuesOf k ((k, a) :: pairs) = a :: valuesOf k pairs := by
  simp [valuesOf]

lemma valuesOf_cons_of_ne (h : name ≠ k) (a : α) (pairs : List (String × α)) :
    valuesOf k ((name, a) :: pairs) = valuesOf k pairs := by
  simp [valuesOf, h]

lemma valuesOf_eq_nil (h : ∀ p ∈ pairs, p.1 ≠ k) : valuesOf k pairs = [] := by
  rw [valuesOf, List.filter_eq_nil_iff.mpr fun p hp => by simp [h p hp], List.map_nil]

lemma mem_of_mem_valuesOf (h : a ∈ valuesOf k pairs) : (k, a) ∈ pairs := by
  obtain ⟨p, hp, rfl⟩ := List.mem_map.mp h
  obtain ⟨hp, hname⟩ := List.mem_filter.mp hp
  rwa [← of_decide_eq_true hname]

/-- Each name has the last value that it is given, in the order of the names. -/
structure Keeps (pairs fields : List (String × α)) : Prop where
  sorted : (fields.map Prod.fst).Pairwise (· < ·)
  mem_iff : ∀ k a, (k, a) ∈ fields ↔ (valuesOf k pairs).getLast? = some a

/-- Names in their order are different ones. -/
lemma nodup_names (sorted : (fields.map Prod.fst).Pairwise (· < ·)) :
    (fields.map Prod.fst).Nodup := by
  refine sorted.imp fun {name k} hlt => ?_
  rintro rfl
  exact String.lt_irrefl _ hlt

/-- There is only one way to keep the fields. -/
lemma Keeps.unique (h : Keeps pairs fields) (h' : Keeps pairs other) : fields = other := by
  have hmem : ∀ f, f ∈ fields ↔ f ∈ other := fun f =>
    (h.mem_iff f.1 f.2).trans (h'.mem_iff f.1 f.2).symm
  have hsorted : fields.Pairwise fun f g => f.1 < g.1 := List.pairwise_map.mp h.sorted
  have hsorted' : other.Pairwise fun f g => f.1 < g.1 := List.pairwise_map.mp h'.sorted
  have hnodup : fields.Nodup := List.Nodup.of_map Prod.fst (nodup_names h.sorted)
  have hnodup' : other.Nodup := List.Nodup.of_map Prod.fst (nodup_names h'.sorted)
  refine List.Perm.eq_of_pairwise (fun f g _ _ hfg hgf => ?_) hsorted hsorted' ?_
  · exact absurd hgf (String.lt_asymm hfg)
  · exact (List.perm_ext_iff_of_nodup hnodup hnodup').mpr hmem

/-- The values that are kept were given. -/
lemma Keeps.mem_pairs (h : Keeps pairs fields) {f : String × α} (hf : f ∈ fields) : f ∈ pairs :=
  mem_of_mem_valuesOf (List.mem_of_getLast? ((h.mem_iff f.1 f.2).mp hf))

lemma mem_insertField {f : String × α} (h : f ∈ insertField name v fields) :
    f = (name, v) ∨ f ∈ fields := by
  induction fields with
  | nil => simpa [insertField] using h
  | cons g rest ih =>
    rw [insertField] at h
    split at h
    · simpa using h
    · split at h
      · rcases List.mem_cons.mp h with rfl | h
        · exact .inl rfl
        · exact .inr (List.mem_cons_of_mem g h)
      · rcases List.mem_cons.mp h with rfl | h
        · exact .inr List.mem_cons_self
        · exact (ih h).imp_right (List.mem_cons_of_mem g)

lemma lt_of_not_lt_of_ne {name other : String} (h : ¬ name < other) (hne : name ≠ other) :
    other < name := by
  by_contra hlt
  exact hne (String.le_antisymm (String.not_lt.mp hlt) (String.not_lt.mp h))

/-- A field is put where it belongs. -/
lemma sorted_insertField (h : (fields.map Prod.fst).Pairwise (· < ·)) :
    ((insertField name v fields).map Prod.fst).Pairwise (· < ·) := by
  induction fields with
  | nil => exact List.pairwise_singleton _ _
  | cons f rest ih =>
    rw [List.map_cons, List.pairwise_cons] at h
    obtain ⟨hfirst, hrest⟩ := h
    rw [insertField]
    split
    · next hlt =>
      rw [List.map_cons, List.pairwise_cons]
      refine ⟨fun k hk => ?_, List.pairwise_cons.mpr ⟨hfirst, hrest⟩⟩
      rcases List.mem_cons.mp hk with rfl | hk
      · exact hlt
      · exact String.lt_trans hlt (hfirst k hk)
    · next hlt =>
      split
      · next heq =>
        subst heq
        exact List.pairwise_cons.mpr ⟨hfirst, hrest⟩
      · next hne =>
        rw [List.map_cons, List.pairwise_cons]
        refine ⟨fun k hk => ?_, ih hrest⟩
        obtain ⟨g, hg, rfl⟩ := List.mem_map.mp hk
        rcases mem_insertField hg with rfl | hg
        · exact lt_of_not_lt_of_ne hlt hne
        · exact hfirst g.1 (List.mem_map_of_mem hg)

/-- The value that is put in counts for its name, and the other names keep theirs. -/
lemma mem_insertField_iff (h : (fields.map Prod.fst).Pairwise (· < ·)) :
    (k, a) ∈ insertField name v fields ↔
      (k = name ∧ a = v) ∨ (k ≠ name ∧ (k, a) ∈ fields) := by
  induction fields with
  | nil => simp [insertField]
  | cons f rest ih =>
    obtain ⟨other, kept⟩ := f
    rw [List.map_cons, List.pairwise_cons] at h
    obtain ⟨hfirst, hrest⟩ := h
    have hlater : ∀ {k a}, (k, a) ∈ rest → other < k := fun hm =>
      hfirst _ (List.mem_map_of_mem hm)
    rw [insertField]
    split
    · next hlt =>
      have hne : ∀ {k a}, (k, a) ∈ (other, kept) :: rest → k ≠ name := by
        rintro k a hm rfl
        rcases List.mem_cons.mp hm with he | hm
        · obtain ⟨rfl, -⟩ := Prod.mk.inj he
          exact String.lt_irrefl _ hlt
        · exact String.lt_asymm hlt (hlater hm)
      rw [List.mem_cons, Prod.mk.injEq]
      exact or_congr_right ⟨fun hm => ⟨hne hm, hm⟩, And.right⟩
    · next hlt =>
      split
      · next heq =>
        subst heq
        rw [List.mem_cons, List.mem_cons, Prod.mk.injEq, Prod.mk.injEq]
        refine or_congr_right ⟨fun hm => ⟨?_, .inr hm⟩, ?_⟩
        · rintro rfl
          exact String.lt_irrefl _ (hlater hm)
        · rintro ⟨hne, ⟨he, -⟩ | hm⟩
          · exact absurd he hne
          · exact hm
      · next hne =>
        have hother : k = other → k ≠ name := fun he hk => hne (hk.symm.trans he)
        rw [List.mem_cons, List.mem_cons, Prod.mk.injEq, ih hrest]
        constructor
        · rintro (he | hm | ⟨hk, hm⟩)
          · exact .inr ⟨hother he.1, .inl he⟩
          · exact .inl hm
          · exact .inr ⟨hk, .inr hm⟩
        · rintro (hm | ⟨hk, he | hm⟩)
          · exact .inr (.inl hm)
          · exact .inl he
          · exact .inr (.inr ⟨hk, hm⟩)

/-- One more pair after those that are kept. -/
lemma Keeps.insertField (h : Keeps pairs fields) (name : String) (v : α) :
    Keeps (pairs ++ [(name, v)]) (insertField name v fields) where
  sorted := sorted_insertField h.sorted
  mem_iff k a := by
    rw [mem_insertField_iff h.sorted, valuesOf_append]
    by_cases hk : k = name
    · subst hk
      rw [valuesOf_cons_self]
      simp [valuesOf, eq_comm]
    · rw [valuesOf_cons_of_ne (Ne.symm hk)]
      simp [valuesOf, hk, h.mem_iff k a]

lemma Keeps.foldl (h : Keeps pairs fields) (more : List (String × α)) :
    Keeps (pairs ++ more)
      (more.foldl (fun sorted field => Json.insertField field.1 field.2 sorted) fields) := by
  induction more generalizing pairs fields with
  | nil => rwa [List.append_nil]
  | cons p more ih =>
    have hnext := ih (h.insertField p.1 p.2)
    rwa [List.append_assoc] at hnext

/-- Sorting keeps the last value of each name. -/
theorem keeps_sortFields (pairs : List (String × α)) : Keeps pairs (sortFields pairs) := by
  have hempty : Keeps ([] : List (String × α)) [] := ⟨List.Pairwise.nil, by simp [valuesOf]⟩
  exact hempty.foldl pairs

end Fields

/-! ## Numbers -/

/-- What a number is kept as: as it is, if it has neither point nor exponent and fits into 64
bits, unless it is a zero with a minus sign; any other number as the double that is read. -/
inductive Numeral.Means (n : Numeral) : Number → Prop
  | whole {i : Int} (hfraction : n.fraction = none) (hexponent : n.exponent = none)
      (hsign : n.negative = true → n.whole.value ≠ 0)
      (hvalue : i = if n.negative then -(n.whole.value : Int) else n.whole.value)
      (bounds : -0x8000000000000000 ≤ i ∧ i < 0x10000000000000000) : Means n (.whole i bounds)
  | real {x : Binary64}
      (hread : Number.read n.negative n.magnitudeBytes = .ok (.real x, [])) : Means n (.real x)

/-- A number is read as what it is kept as. -/
lemma Numeral.Means.read {n : Numeral} {number : Number} (h : n.Means number)
    {rest : List UInt8} (hr : Ends rest) :
    (Number.read n.negative (n.magnitudeBytes ++ rest)).toOption = some (number, rest) := by
  cases h with
  | @whole i hfraction hexponent hsign hvalue bounds =>
    have hfit : n.whole.value < 0x10000000000000000 := by
      split at hvalue <;> omega
    rw [Number.read_whole n hfraction hexponent hfit n.negative hr, toOption_ok]
    have hwhole : Number.wholeOf n.negative n.whole.value = .whole i bounds := by
      unfold Number.wholeOf
      split
      · next hneg =>
        have hpos := hsign hneg
        rw [if_pos hneg] at hvalue
        rw [dif_pos (by omega)]
        simp only [hvalue]
      · next hneg =>
        rw [if_neg hneg] at hvalue
        simp only [hvalue]
    rw [hwhole]
  | @real x hread =>
    obtain ⟨result, hsettled⟩ := Number.settled_read n n.negative
    have halone : (Number.read n.negative (n.magnitudeBytes ++ [])).toOption = _ :=
      hsettled [] ends_nil
    rw [List.append_nil, hread, toOption_ok] at halone
    rw [hsettled rest hr]
    obtain ⟨number, rfl, hnumber⟩ := Option.map_eq_some_iff.mp halone.symm
    rw [(Prod.mk.inj hnumber).1]
    rfl

/-! ## Values -/

/-- The values that texts stand for, with at most `room` containers inside one another. -/
inductive Denotes : (room : Nat) → List UInt8 → Value → Prop
  | null {room : Nat} : Denotes room (utf8 "null") .null
  | yes {room : Nat} : Denotes room (utf8 "true") (.boolean true)
  | no {room : Nat} : Denotes room (utf8 "false") (.boolean false)
  | numeral {room : Nat} {n : Numeral} {number : Number} (means : n.Means number) :
      Denotes room n.bytes (.number number)
  | string {room : Nat} {w : List UInt8} {s : String} (spells : Spells w s.toList) :
      Denotes room (quote :: (w ++ [quote])) (.text s)
  | array {room : Nat} {gap : Blanks} {items : List Item} (meaning : List UInt8 → Value)
      (values : ∀ item ∈ items, Denotes room item.value (meaning item.value)) :
      Denotes (room + 1) (listBytes gap items) (.array (items.map fun item => meaning item.value))
  | members {room : Nat} {gap : Blanks} {members : List Member} (name : List UInt8 → String)
      (meaning : List UInt8 → Value) {fields : List (String × Value)}
      (names : ∀ m ∈ members, Spells m.name (name m.name).toList)
      (values : ∀ m ∈ members, Denotes room m.value (meaning m.value))
      (kept : Keeps (members.map fun m => (name m.name, meaning m.value)) fields) :
      Denotes (room + 1) (objectBytes gap members) (.object fields)

section Denoting

variable {room : Nat} {t : List UInt8} {v : Value}

lemma Denotes.isValue (h : Denotes room t v) : IsValue t := by
  induction h with
  | null => exact .null
  | yes => exact .yes
  | no => exact .no
  | numeral => exact .numeral _
  | string spells => exact .string spells.quotable
  | array _ _ ih => exact .array ih
  | members _ _ names _ _ ih => exact .members (fun m hm => (names m hm).quotable) ih

/-- Members whose names and values are known fill in a state one after the other. -/
lemma foldMembers_known {σ : Type} (name : List UInt8 → String) (meaning : List UInt8 → Value)
    (next : String → Value → σ → σ) (members : List Member) : ∀ state : σ,
    foldMembers (fun w => some (name w)) (fun key v state => some (next key (meaning v) state))
      members state =
      some ((members.map fun m => (name m.name, meaning m.value)).foldl
        (fun state p => next p.1 p.2 state) state) := by
  induction members with
  | nil => exact fun _ => rfl
  | cons m members ih =>
    intro state
    rw [foldMembers_cons, Option.bind_some, Option.bind_some, ih]
    rfl

/-- A text is read as the value that it stands for. -/
theorem Denotes.takes_value (h : Denotes room t v) : Takes (value room) t (some v) := by
  have hopens := h.isValue.opens
  refine .of_opens hopens (value_skips room) fun rest hr => ?_
  induction h generalizing rest with
  | @null room => exact congrArg _ (value_null room rest)
  | @yes room => exact congrArg _ (value_true room rest)
  | @no room => exact congrArg _ (value_false room rest)
  | numeral means =>
    rw [value_numeral, toOption_bind, means.read hr]
    rfl
  | string spells =>
    simp only [List.cons_append, List.append_assoc, List.nil_append]
    rw [value_quote, toOption_bind, spells.names rest]
    rfl
  | @array room gap items meaning values ih =>
    have hitems : ∀ item ∈ items, Opens item.value ∧
        Takes (value room) item.value (some (meaning item.value)) := fun item hi =>
      have hopens := (values item hi).isValue.opens
      ⟨hopens, .of_opens hopens (value_skips room) (ih item hi hopens)⟩
    have h := list_content (value room) (fun v => some (meaning v)) gap rest hitems
    have hall : (items.mapM fun item => some (meaning item.value)) =
        some (items.map fun item => meaning item.value) := List.mapM_pure
    simp only [listBytes, List.cons_append, List.append_assoc, List.nil_append]
    rw [value_list, toOption_bind, h, hall]
    rfl
  | @members room gap members name meaning fields names values kept ih =>
    have hvalues : ∀ m ∈ members, Takes (value room) m.value (some (meaning m.value)) :=
      fun m hm =>
        have hopens := (values m hm).isValue.opens
        .of_opens hopens (value_skips room) (ih m hm hopens)
    have h := object_content (valueField room) (fun w => some (name w))
      (fun key v sorted => some (insertField key (meaning v) sorted)) gap rest []
      (fun m hm => (names m hm).names) fun m hm _ _ _ => (Takes.map (hvalues m hm)).field
    have hsorted := (keeps_sortFields _).unique kept
    rw [foldMembers_known name meaning insertField] at h
    simp only [objectBytes, List.cons_append, List.append_assoc, List.nil_append]
    rw [value_object, toOption_bind, h]
    show some (Value.object (sortFields _), rest) = _
    rw [hsorted]
    rfl

/-- A text stands for one value only. -/
theorem Denotes.unique {v' : Value} (h : Denotes room t v) (h' : Denotes room t v') : v = v' :=
  Option.some.inj (h.takes_value.outcome_eq.symm.trans h'.takes_value.outcome_eq)

/-! ## Values of one kind -/

/-- The number that a value is, if it is one. -/
def Value.number? : Value → Option Number
  | .number n => some n
  | _ => none

/-- The truth value that a value is, if it is one. -/
def Value.boolean? : Value → Option Bool
  | .boolean b => some b
  | _ => none

/-- Where a number is wanted, it is taken, and any other value is refused. -/
lemma Denotes.takes_number (wanted : String) (h : Denotes room t v) :
    Takes (number wanted) t v.number? := by
  refine .of_opens h.isValue.opens (fun bytes => by simp only [number, skipBlanks_skipBlanks])
    fun rest hr => ?_
  cases h with
  | numeral means =>
    rw [number_numeral]
    exact means.read hr
  | null | yes | no | string | array | members => rfl

/-- Where a truth value is wanted, it is taken, and any other value is refused. -/
lemma Denotes.takes_boolean (h : Denotes room t v) : Takes boolean t v.boolean? := by
  refine .of_opens h.isValue.opens (fun bytes => by simp only [boolean, skipBlanks_skipBlanks])
    fun rest _ => ?_
  cases h with
  | yes => exact congrArg _ (boolean_true rest)
  | no => exact congrArg _ (boolean_false rest)
  | @numeral _ n => exact boolean_numeral n rest
  | null | string | array | members => rfl

end Denoting

/-! ## Objects -/

/-- The text of an object whose members are known. -/
structure Body (room : Nat) where
  gap : Blanks
  members : List Member
  /-- The text that a name spells. -/
  name : List UInt8 → String
  /-- What a value stands for. -/
  meaning : List UInt8 → Value
  names : ∀ m ∈ members, Spells m.name (name m.name).toList
  values : ∀ m ∈ members, Denotes room m.value (meaning m.value)

namespace Body

variable {room : Nat} (body : Body room)

def bytes : List UInt8 := objectBytes body.gap body.members

/-- The names and what they are given, in the order of the text. -/
def pairs : List (String × Value) :=
  body.members.map fun m => (body.name m.name, body.meaning m.value)

lemma denotes {fields : List (String × Value)} (kept : Keeps body.pairs fields) :
    Denotes (room + 1) body.bytes (.object fields) :=
  .members body.name body.meaning body.names body.values kept

/-- Each value of an object has a text of its own. -/
lemma exists_of_mem_pairs {p : String × Value} (h : p ∈ body.pairs) :
    ∃ t, Denotes room t p.2 := by
  obtain ⟨m, hm, rfl⟩ := List.mem_map.mp h
  exact ⟨m.value, body.values m hm⟩

end Body

end CheckIn.Json
