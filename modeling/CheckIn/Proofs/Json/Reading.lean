/-
# What readers take

A reader `Takes` a value to a result if it reads the value so wherever it stands: after any
blanks, and before anything that may follow a value.  The result may be that the value is
refused; which fault is reported is left open.

A reader that is built from readers takes what they take, one lemma for each way to build one:
lists give `List.mapM` of the results of the items and objects `List.foldlM` over the members.
With them every value of the grammar is read `Locally` by the readers of strings, numbers and
values of any kind, that is, what they make of it depends on the value alone.
-/
import CheckIn.Proofs.Json.Grammar

namespace CheckIn.Json
open Byte

/-! ## Results without their faults -/

lemma toOption_bind {ε α β : Type} (x : Except ε α) (f : α → Except ε β) :
    (x >>= f).toOption = x.toOption.bind fun a => (f a).toOption := by
  cases x <;> rfl

@[simp] lemma toOption_ok {ε α : Type} (a : α) : (Except.ok a : Except ε α).toOption = some a :=
  rfl

@[simp] lemma toOption_error {ε α : Type} (e : ε) :
    (Except.error e : Except ε α).toOption = none := rfl

lemma toOption_eq_some_iff {ε α : Type} {x : Except ε α} {a : α} :
    x.toOption = some a ↔ x = .ok a := by
  cases x <;> simp [Except.toOption]

/-- Reading one part after the other. -/
lemma toOption_bind_apply {α β : Type} (read : Reader α) (next : α → Reader β)
    (bytes : List UInt8) :
    ((read >>= next) bytes).toOption =
      (read bytes).toOption.bind fun p => (next p.1 p.2).toOption :=
  toOption_bind _ _

lemma bind_apply_of_ok {α β : Type} {read : Reader α} {bytes rest : List UInt8} {a : α}
    (h : read bytes = .ok (a, rest)) (next : α → Reader β) :
    (read >>= next) bytes = next a rest := by
  show (read bytes >>= fun p => next p.1 p.2) = _
  rw [h]
  rfl

@[simp] lemma pure_apply {α : Type} (a : α) (bytes : List UInt8) :
    (pure a : Reader α) bytes = .ok (a, bytes) := rfl

/-! ## Taking a value -/

/-- The reader makes `result` of the value `v`, and leaves what follows it. -/
def Takes {α : Type} (read : Reader α) (v : List UInt8) (result : Option α) : Prop :=
  ∀ (gap : Blanks) (rest : List UInt8), Ends rest →
    (read (gap.bytes ++ (v ++ rest))).toOption = result.map (·, rest)

/-- What the reader makes of a value that stands alone. -/
def outcome {α : Type} (read : Reader α) (v : List UInt8) : Option α :=
  (read v).toOption.map Prod.fst

/-- What the reader makes of a value does not depend on what stands around it. -/
def Local {α : Type} (read : Reader α) (v : List UInt8) : Prop := Takes read v (outcome read v)

/-- What is made of what stands before `rest` does not depend on `rest`, which is left. -/
def Settled {α : Type} (scan : List UInt8 → Except Error (α × List UInt8)) : Prop :=
  ∃ result : Option α, ∀ rest, Ends rest → (scan rest).toOption = result.map (·, rest)

section Taking

variable {α β : Type} {read : Reader α} {v : List UInt8} {result : Option α}

lemma Takes.outcome_eq (h : Takes read v result) : outcome read v = result := by
  have := h .none [] ends_nil
  rw [Blanks.bytes_none, List.nil_append, List.append_nil] at this
  rw [outcome, this, Option.map_map]
  exact Option.map_id'

lemma Takes.local (h : Takes read v result) : Local read v := by
  rw [Local, h.outcome_eq]
  exact h

/-- A reader that looks at the bytes after the blanks only is tried there. -/
lemma Takes.of_opens (hv : Opens v) (skips : ∀ bytes, read bytes = read (skipBlanks bytes))
    (h : ∀ rest, Ends rest → (read (v ++ rest)).toOption = result.map (·, rest)) :
    Takes read v result := fun gap rest hr => by
  rw [skips, skipBlanks_append, hv.skipBlanks]
  exact h rest hr

lemma Local.of_settled (hv : Opens v) (skips : ∀ bytes, read bytes = read (skipBlanks bytes))
    (h : Settled fun rest => read (v ++ rest)) : Local read v := by
  obtain ⟨result, h⟩ := h
  exact (Takes.of_opens hv skips h).local

/-- A check or a conversion after the value. -/
lemma Takes.bind {next : α → Reader β} {f : α → Option β} (h : Takes read v result)
    (hn : ∀ a rest, (next a rest).toOption = (f a).map (·, rest)) :
    Takes (read >>= next) v (result.bind f) := by
  intro gap rest hr
  rw [toOption_bind_apply, h gap rest hr]
  cases result with
  | none => rfl
  | some a => exact hn a rest

lemma Takes.map {f : α → β} (h : Takes read v result) :
    Takes (do return f (← read)) v (result.map f) := by
  rw [Option.map_eq_bind]
  exact h.bind fun _ _ => rfl

lemma Local.map {f : α → β} (h : Local read v) : Local (do return f (← read)) v :=
  (Takes.map h).local

end Taking

/-! ## Words -/

lemma afterWord_append (letters rest : List UInt8) :
    afterWord letters (letters ++ rest) = .ok rest := by
  induction letters with
  | nil => cases rest <;> rfl
  | cons b letters ih => rw [List.cons_append, afterWord, if_pos rfl, ih]

lemma afterNull_append (rest : List UInt8) : afterNull (utf8 "ull" ++ rest) = .ok rest :=
  afterWord_append _ _

lemma afterTrue_append (rest : List UInt8) : afterTrue (utf8 "rue" ++ rest) = .ok rest :=
  afterWord_append _ _

lemma afterFalse_append (rest : List UInt8) : afterFalse (utf8 "alse" ++ rest) = .ok rest :=
  afterWord_append _ _

/-! ## Lists -/

lemma nextItem_first {bytes rest : List UInt8} {b : UInt8} (h : skipBlanks bytes = b :: rest)
    (hb : b ≠ closeBracket) : nextItem true bytes = .ok (true, b :: rest) := by
  rw [nextItem, h]
  split
  · next h => cases h
  · next h => exact absurd (List.cons.inj h).1 hb
  · next h => rw [if_pos rfl, h]

lemma nextItem_comma {bytes more rest : List UInt8} {b : UInt8}
    (h : skipBlanks bytes = comma :: more) (hm : skipBlanks more = b :: rest)
    (hb : b ≠ closeBracket) : nextItem false bytes = .ok (true, b :: rest) := by
  rw [nextItem, h]
  split
  · next he => cases he
  · next he => exact absurd (List.cons.inj he).1 (by decide)
  · next he =>
    obtain ⟨rfl, rfl⟩ := List.cons.inj he
    rw [if_neg Bool.false_ne_true, if_pos rfl, hm]
    split
    · next he => cases he
    · next he => exact absurd (List.cons.inj he).1 hb
    · rfl

/-- An item stands next where a list goes on. -/
lemma nextItem_item (first : Bool) (gap : Blanks) {item : Item} (h : Opens item.value)
    (items : List Item) (rest : List UInt8) :
    nextItem first (gap.bytes ++ (content first ((item :: items).map Item.bytes) ++ rest)) =
      .ok (true, item.value ++ (item.after.bytes ++
        (content false (items.map Item.bytes) ++ rest))) := by
  obtain ⟨b, more, hv, hb, hc, -⟩ := h
  have hs : skipBlanks (item.bytes ++ (content false (items.map Item.bytes) ++ rest)) =
      b :: (more ++ (item.after.bytes ++ (content false (items.map Item.bytes) ++ rest))) := by
    rw [Item.bytes, List.append_assoc, skipBlanks_append, hv, List.cons_append, List.cons_append,
      skipBlanks_cons hb, List.append_assoc]
  rw [List.map_cons, content, List.append_assoc, List.append_assoc, hv, List.cons_append]
  cases first with
  | true => exact nextItem_first (by rw [skipBlanks_append]; exact hs) hc
  | false =>
    refine nextItem_comma ?_ hs hc
    rw [skipBlanks_append]
    exact skipBlanks_cons rfl _

/-- A list ends at its closing bracket. -/
lemma nextItem_close (first : Bool) (gap : Blanks) (rest : List UInt8) :
    nextItem first (gap.bytes ++ closeBracket :: rest) = .ok (false, closeBracket :: rest) := by
  rw [nextItem, skipBlanks_append, skipBlanks_cons (b := closeBracket) rfl]
  rfl

lemma closeList_close (gap : Blanks) (rest : List UInt8) :
    closeList (gap.bytes ++ closeBracket :: rest) = .ok ((), rest) := by
  rw [closeList, skipBlanks_append, skipBlanks_cons (b := closeBracket) rfl]
  rfl

section Lists

variable {α : Type} {read : Reader α} {result : List UInt8 → Option α}

/-- The items of a list, one after the other. -/
lemma items_content : ∀ {list : List Item} {fuel : Nat} (first : Bool) (gap : Blanks)
    (rest : List UInt8), list.length < fuel →
    (∀ item ∈ list, Opens item.value ∧ Takes read item.value (result item.value)) →
    (items read fuel first (gap.bytes ++
        (content first (list.map Item.bytes) ++ closeBracket :: rest))).toOption =
      (list.mapM fun item => result item.value).map (·, rest)
  | [], fuel + 1, first, gap, rest, _, _ => by
    rw [items, toOption_bind_apply, List.map_nil, content, List.nil_append, nextItem_close,
      toOption_ok, Option.bind_some]
    show ((closeList >>= fun _ => pure []) _).toOption = _
    rw [toOption_bind_apply]
    have := closeList_close .none rest
    rw [Blanks.bytes_none, List.nil_append] at this
    rw [this]
    rfl
  | item :: more, fuel + 1, first, gap, rest, hf, h => by
    obtain ⟨ho, ht⟩ := h item List.mem_cons_self
    have hr : Ends (item.after.bytes ++ (content false (more.map Item.bytes) ++
        closeBracket :: rest)) := (ends_content (ends_closeBracket rest)).blanks item.after
    have hread := ht .none _ hr
    rw [Blanks.bytes_none, List.nil_append] at hread
    have ih := items_content false item.after rest (Nat.lt_of_succ_lt_succ hf)
      fun i hi => h i (List.mem_cons_of_mem item hi)
    rw [items, toOption_bind_apply, nextItem_item first gap ho, toOption_ok, Option.bind_some]
    show ((read >>= fun head => items read fuel false >>= fun tail => pure (head :: tail))
      _).toOption = _
    rw [toOption_bind_apply, hread, List.mapM_cons]
    cases result item.value with
    | none => rfl
    | some head =>
      show ((items read fuel false >>= fun tail => pure (head :: tail)) _).toOption = _
      rw [toOption_bind_apply, ih]
      cases (more.mapM fun item => result item.value) with
      | none => rfl
      | some tail => rfl

/-- A list whose items are taken is taken. -/
theorem list_content (read : Reader α) (result : List UInt8 → Option α) (gap : Blanks)
    (rest : List UInt8) {items : List Item}
    (h : ∀ item ∈ items, Opens item.value ∧ Takes read item.value (result item.value)) :
    (list read (gap.bytes ++
        (content true (items.map Item.bytes) ++ closeBracket :: rest))).toOption =
      (items.mapM fun item => result item.value).map (·, rest) := by
  refine items_content true gap rest ?_ h
  have hlen : (items.map Item.bytes).length ≤ (content true (items.map Item.bytes)).length := by
    refine length_le_content (fun part hp => ?_) true
    obtain ⟨item, hi, rfl⟩ := List.mem_map.1 hp
    have := (h item hi).1.length_pos
    simp only [Item.bytes, List.length_append]
    omega
  simp only [List.length_append, List.length_map] at hlen ⊢
  omega

end Lists

/-! ## Objects -/

/-- What stands between the quotes of a name stands for a text, or for none. -/
def Names (w : List UInt8) (name : Option String) : Prop :=
  ∀ rest, (Text.read (w ++ quote :: rest)).toOption = name.map (·, rest)

/-- The reader takes the colon of a member and makes `result` of its value. -/
def TakesField {σ : Type} (read : Reader σ) (v : List UInt8) (result : Option σ) : Prop :=
  ∀ (before after : Blanks) (rest : List UInt8), Ends rest →
    (read (before.bytes ++ colon :: (after.bytes ++ (v ++ rest)))).toOption =
      result.map (·, rest)

lemma separator_colon (gap : Blanks) (rest : List UInt8) :
    separator (gap.bytes ++ colon :: rest) = .ok ((), rest) := by
  rw [separator, skipBlanks_append, skipBlanks_cons (b := colon) rfl]
  rfl

/-- A colon, and then a value. -/
lemma Takes.field {σ : Type} {read : Reader σ} {v : List UInt8} {result : Option σ}
    (h : Takes read v result) : TakesField (do separator; read) v result := by
  intro before after rest hr
  rw [toOption_bind_apply, separator_colon]
  exact h after rest hr

/-- A member stands next where an object goes on. -/
lemma nextField_member (first : Bool) (gap : Blanks) {m : Member} {name : Option String}
    (h : Names m.name name) (members : List Member) (rest : List UInt8) :
    (nextField first (gap.bytes ++
        (content first ((m :: members).map Member.bytes) ++ rest))).toOption =
      name.map fun key => (some key, m.beforeColon.bytes ++ colon :: (m.afterColon.bytes ++
        (m.value ++ (m.after.bytes ++ (content false (members.map Member.bytes) ++ rest))))) := by
  have hs : skipBlanks (m.bytes ++ (content false (members.map Member.bytes) ++ rest)) =
      quote :: (m.tail ++ (content false (members.map Member.bytes) ++ rest)) := by
    rw [Member.bytes, List.append_assoc, skipBlanks_append]
    exact skipBlanks_cons rfl _
  have hread : (Text.read (m.tail ++ (content false (members.map Member.bytes) ++ rest)) >>=
      fun p => Except.ok (ε := Error) (some p.1, p.2)).toOption =
      name.map fun key => (some key, m.beforeColon.bytes ++ colon :: (m.afterColon.bytes ++
        (m.value ++ (m.after.bytes ++ (content false (members.map Member.bytes) ++ rest))))) := by
    simp only [Member.tail, List.append_assoc, List.cons_append]
    rw [toOption_bind, h]
    cases name <;> rfl
  rw [List.map_cons, content, List.append_assoc, List.append_assoc, ← hread]
  cases first with
  | true =>
    rw [nextField, skipBlanks_append, if_pos rfl, List.nil_append, hs]
    rfl
  | false =>
    have hc : skipBlanks ((if false = true then [] else [comma]) ++
        (m.bytes ++ (content false (members.map Member.bytes) ++ rest))) =
        comma :: (m.bytes ++ (content false (members.map Member.bytes) ++ rest)) :=
      skipBlanks_cons rfl _
    rw [nextField, skipBlanks_append, hc]
    split
    · next he => cases he
    · next he => exact absurd (List.cons.inj he).1 (by decide)
    · next he =>
      obtain ⟨rfl, rfl⟩ := List.cons.inj he
      rw [if_neg Bool.false_ne_true, if_pos rfl, hs]
      rfl

/-- An object ends at its closing brace. -/
lemma nextField_close (first : Bool) (gap : Blanks) (rest : List UInt8) :
    nextField first (gap.bytes ++ closeBrace :: rest) = .ok (none, rest) := by
  rw [nextField, skipBlanks_append, skipBlanks_cons (b := closeBrace) rfl]
  rfl

section Objects

variable {σ : Type} {field : String → σ → Reader σ}
  {name : List UInt8 → Option String} {step : String → List UInt8 → σ → Option σ}

/-- What the members of an object make of a state. -/
def foldMembers (name : List UInt8 → Option String) (step : String → List UInt8 → σ → Option σ)
    (members : List Member) (state : σ) : Option σ :=
  members.foldlM (fun state m => (name m.name).bind fun key => step key m.value state) state

lemma foldMembers_cons (m : Member) (members : List Member) (state : σ) :
    foldMembers name step (m :: members) state =
      (name m.name).bind fun key => (step key m.value state).bind fun state =>
        foldMembers name step members state := by
  rw [foldMembers, List.foldlM_cons]
  cases name m.name <;> rfl

/-- The members of an object, one after the other. -/
lemma fields_content : ∀ {members : List Member} {fuel : Nat} (first : Bool) (gap : Blanks)
    (rest : List UInt8) (state : σ), members.length < fuel →
    (∀ m ∈ members, Names m.name (name m.name)) →
    (∀ m ∈ members, ∀ key, name m.name = some key → ∀ state,
      TakesField (field key state) m.value (step key m.value state)) →
    (fields field fuel first state (gap.bytes ++
        (content first (members.map Member.bytes) ++ closeBrace :: rest))).toOption =
      (foldMembers name step members state).map (·, rest)
  | [], fuel + 1, first, gap, rest, state, _, _, _ => by
    rw [fields, toOption_bind_apply, List.map_nil, content, List.nil_append, nextField_close]
    rfl
  | m :: more, fuel + 1, first, gap, rest, state, hf, hn, h => by
    have hr : Ends (m.after.bytes ++ (content false (more.map Member.bytes) ++
        closeBrace :: rest)) := (ends_content (ends_closeBrace rest)).blanks m.after
    have ih := fun state => fields_content false m.after rest state (Nat.lt_of_succ_lt_succ hf)
      (fun k hk => hn k (List.mem_cons_of_mem m hk))
      fun k hk => h k (List.mem_cons_of_mem m hk)
    rw [fields, toOption_bind_apply, nextField_member first gap (hn m List.mem_cons_self),
      foldMembers_cons]
    cases hk : name m.name with
    | none => rfl
    | some key =>
      have hread := h m List.mem_cons_self key hk state m.beforeColon m.afterColon _ hr
      show ((field key state >>= fun state => fields field fuel false state) _).toOption = _
      rw [toOption_bind_apply, hread, Option.bind_some]
      cases step key m.value state with
      | none => rfl
      | some next => exact ih next

/-- An object whose members are taken is taken. -/
theorem object_content (field : String → σ → Reader σ) (name : List UInt8 → Option String)
    (step : String → List UInt8 → σ → Option σ) (gap : Blanks) (rest : List UInt8) (state : σ)
    {members : List Member}
    (hn : ∀ m ∈ members, Names m.name (name m.name))
    (h : ∀ m ∈ members, ∀ key, name m.name = some key → ∀ state,
      TakesField (field key state) m.value (step key m.value state)) :
    (object field state (gap.bytes ++
        (content true (members.map Member.bytes) ++ closeBrace :: rest))).toOption =
      (foldMembers name step members state).map (·, rest) := by
  refine fields_content true gap rest state ?_ hn h
  have hlen : (members.map Member.bytes).length ≤
      (content true (members.map Member.bytes)).length := by
    refine length_le_content (fun part hp => ?_) true
    obtain ⟨m, -, rfl⟩ := List.mem_map.1 hp
    simp only [Member.bytes, List.length_append, List.length_cons]
    omega
  simp only [List.length_append, List.length_map] at hlen ⊢
  omega

end Objects

/-! ## Whole texts -/

/-- A text that holds one value is what the value is. -/
theorem Takes.whole {α : Type} {read : Reader α} {v : List UInt8} {result : Option α}
    (h : Takes read v result) (before after : Blanks) :
    (read.whole (before.bytes ++ (v ++ after.bytes))).toOption = result := by
  have hread := h before after.bytes (by simpa using Ends.blanks after ends_nil)
  rw [Reader.whole, toOption_bind, hread]
  cases result with
  | none => rfl
  | some a =>
    simp only [Option.map_some, Option.bind_some, skipBlanks_blanks]
    rfl

end CheckIn.Json
