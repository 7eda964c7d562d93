/-
# Values of every kind

Each reader of one kind of value, and the reader of values of any kind, makes of a value of the
grammar something that depends on that value alone; it takes it or refuses it.  Where no value is
wanted, `skipValue` passes over any value of the grammar, however deeply it is nested.

The cases follow the grammar: a value is told by its first byte, which for a number is its sign
or a digit.
-/
import CheckIn.Proofs.Json.Numbers
import CheckIn.Proofs.Json.Strings

namespace CheckIn.Json
open Byte

/-! ## Strings, truth values and numbers -/

section Scalars

variable {v : List UInt8} {wanted : String}

lemma Numeral.bytes_negative {n : Numeral} (h : n.negative = true) :
    n.bytes = minus :: n.magnitudeBytes := by
  rw [Numeral.bytes, if_pos h]
  rfl

lemma Numeral.bytes_positive {n : Numeral} (h : n.negative = false) :
    ∃ b rest, n.bytes = b :: rest ∧ n.magnitudeBytes = b :: rest ∧ isDigit b := by
  obtain ⟨b, rest, hb, hd⟩ := n.whole.cons
  have hm : n.magnitudeBytes =
      b :: (rest ++ (fractionBytes n.fraction ++ exponentBytes n.exponent)) := by
    rw [Numeral.magnitudeBytes, hb, List.cons_append]
  refine ⟨b, _, ?_, hm, hd⟩
  rw [Numeral.bytes, if_neg (by simp [h]), List.nil_append, hm]

/-- A number begins with a minus sign or a digit. -/
lemma Numeral.first (n : Numeral) :
    ∃ b rest, n.bytes = b :: rest ∧ (b = minus ∨ isDigit b) := by
  cases h : n.negative with
  | true => exact ⟨minus, _, n.bytes_negative h, .inl rfl⟩
  | false =>
    obtain ⟨b, rest, hb, -, hd⟩ := n.bytes_positive h
    exact ⟨b, rest, hb, .inr hd⟩

/-- The first byte of a number is none of those that begin other values. -/
lemma number_first {b : UInt8} (h : b = minus ∨ isDigit b) :
    isBlank b = false ∧ b ≠ quote ∧ b ≠ openBracket ∧ b ≠ openBrace ∧ b ≠ lowerN ∧
      b ≠ lowerT ∧ b ≠ lowerF := by
  rcases h with rfl | h
  · decide
  · have hne : ∀ {mark}, isDigit mark = false → b ≠ mark := ne_of_isDigit h
    exact ⟨isBlank_of_isDigit h, hne rfl, hne rfl, hne rfl, hne rfl, hne rfl, hne rfl⟩

lemma text_other {b : UInt8} (hb : isBlank b = false) (h : b ≠ quote) (rest : List UInt8) :
    (text wanted (b :: rest)).toOption = none := by
  rw [text, skipBlanks_cons hb]
  split
  · next he => exact absurd (List.cons.inj he).1 h
  · rfl

/-- A string is taken as its text, anything else is refused. -/
lemma IsValue.local_text (hv : IsValue v) : Local (text wanted) v := by
  refine .of_settled hv.opens (fun bytes => by simp only [text, skipBlanks_skipBlanks]) ?_
  cases hv with
  | @string w hw =>
    refine ⟨Text.nameOf w, fun rest _ => ?_⟩
    simp only [List.cons_append, List.append_assoc, List.nil_append]
    exact hw.names rest
  | numeral n =>
    obtain ⟨b, more, hb, hd⟩ := n.first
    have ⟨h₁, h₂, _⟩ := number_first hd
    refine ⟨none, fun rest _ => ?_⟩
    rw [hb]
    exact text_other h₁ h₂ (more ++ rest)
  | null | yes | no | array | members => exact ⟨none, fun rest _ => rfl⟩

lemma boolean_other {b : UInt8} (hb : isBlank b = false) (ht : b ≠ lowerT) (hf : b ≠ lowerF)
    (rest : List UInt8) : (boolean (b :: rest)).toOption = none := by
  rw [boolean, skipBlanks_cons hb]
  split
  · next he => exact absurd (List.cons.inj he).1 ht
  · next he => exact absurd (List.cons.inj he).1 hf
  · rfl

lemma boolean_true (rest : List UInt8) : boolean (utf8 "true" ++ rest) = .ok (true, rest) := by
  show (afterTrue (utf8 "rue" ++ rest) >>= fun rest => Except.ok (true, rest)) = _
  rw [afterTrue_append]
  rfl

lemma boolean_false (rest : List UInt8) : boolean (utf8 "false" ++ rest) = .ok (false, rest) := by
  show (afterFalse (utf8 "alse" ++ rest) >>= fun rest => Except.ok (false, rest)) = _
  rw [afterFalse_append]
  rfl

lemma boolean_numeral (n : Numeral) (rest : List UInt8) :
    (boolean (n.bytes ++ rest)).toOption = none := by
  obtain ⟨b, more, hb, hd⟩ := n.first
  have ⟨h₁, _, _, _, _, h₂, h₃⟩ := number_first hd
  rw [hb]
  exact boolean_other h₁ h₂ h₃ (more ++ rest)

/-- A truth value is taken, anything else is refused. -/
lemma IsValue.local_boolean (hv : IsValue v) : Local boolean v := by
  refine .of_settled hv.opens (fun bytes => by simp only [boolean, skipBlanks_skipBlanks]) ?_
  cases hv with
  | yes => exact ⟨some true, fun rest _ => congrArg _ (boolean_true rest)⟩
  | no => exact ⟨some false, fun rest _ => congrArg _ (boolean_false rest)⟩
  | numeral n => exact ⟨none, fun rest _ => boolean_numeral n rest⟩
  | null | string | array | members => exact ⟨none, fun rest _ => rfl⟩

lemma number_digit {b : UInt8} (hb : isDigit b) (rest : List UInt8) :
    number wanted (b :: rest) = Number.read false (b :: rest) := by
  rw [number, skipBlanks_cons (isBlank_of_isDigit hb)]
  split
  · next he => exact absurd (List.cons.inj he).1 (ne_of_isDigit hb rfl)
  · next he => cases he
  · next he =>
    obtain ⟨rfl, rfl⟩ := List.cons.inj he
    rw [if_pos hb]

lemma number_numeral (wanted : String) (n : Numeral) (rest : List UInt8) :
    number wanted (n.bytes ++ rest) =
      Number.read n.negative (n.magnitudeBytes ++ rest) := by
  cases hneg : n.negative with
  | true =>
    rw [n.bytes_negative hneg]
    rfl
  | false =>
    obtain ⟨b, more, hb, hm, hd⟩ := n.bytes_positive hneg
    simp only [hb, hm, List.cons_append]
    exact number_digit hd _

/-- A number is taken, or refused for its size; anything else is refused. -/
lemma IsValue.local_number (hv : IsValue v) : Local (number wanted) v := by
  refine .of_settled hv.opens (fun bytes => by simp only [number, skipBlanks_skipBlanks]) ?_
  cases hv with
  | numeral n =>
    obtain ⟨result, h⟩ := Number.settled_read n n.negative
    refine ⟨result, fun rest hr => ?_⟩
    show (number wanted (n.bytes ++ rest)).toOption = _
    rw [number_numeral]
    exact h rest hr
  | null | yes | no | string | array | members => exact ⟨none, fun rest _ => rfl⟩

/-- The signed number of 64 bits that a number is, if it is one. -/
def signedOf? : Number → Option Int64
  | .whole value _ =>
    if -0x8000000000000000 ≤ value ∧ value < 0x8000000000000000 then some (Int64.ofInt value)
    else none
  | .real _ => none

/-- A signed number is a number that fits. -/
lemma Takes.signed {result : Option Number} (h : Takes (number "i64") v result) :
    Takes signed v (result.bind signedOf?) := by
  refine h.bind fun n rest => ?_
  cases n with
  | whole value _ =>
    by_cases hfit : -0x8000000000000000 ≤ value ∧ value < 0x8000000000000000
    · simp only [signedOf?, if_pos hfit]
      rfl
    · simp only [signedOf?, if_neg hfit]
      rfl
  | real => rfl

lemma IsValue.local_signed (hv : IsValue v) : Local signed v :=
  (Takes.signed hv.local_number).local

lemma IsValue.local_real (hv : IsValue v) : Local real v := hv.local_number.map

end Scalars

/-! ## Values that may be missing, and lists -/

section Containers

variable {α : Type} {v : List UInt8}

lemma optional_other {read : Reader α} {b : UInt8} (hb : isBlank b = false) (h : b ≠ lowerN)
    (rest : List UInt8) :
    (optional read (b :: rest)).toOption =
      ((read (b :: rest)).toOption.map fun p => (some p.1, p.2)) := by
  rw [optional, skipBlanks_cons hb]
  split
  · next he => exact absurd (List.cons.inj he).1 h
  · rw [toOption_bind]
    cases (read (b :: rest)).toOption <;> rfl

/-- Only one value begins like `null`. -/
lemma IsValue.null_or {v : List UInt8} (hv : IsValue v) :
    v = utf8 "null" ∨ ∃ b rest, v = b :: rest ∧ isBlank b = false ∧ b ≠ lowerN := by
  cases hv with
  | null => exact .inl rfl
  | yes => exact .inr ⟨lowerT, utf8 "rue", by decide, by decide, by decide⟩
  | no => exact .inr ⟨lowerF, utf8 "alse", by decide, by decide, by decide⟩
  | numeral n =>
    obtain ⟨b, more, hb, hd⟩ := n.first
    have ⟨h₁, _, _, _, h₂, _⟩ := number_first hd
    exact .inr ⟨b, more, hb, h₁, h₂⟩
  | string => exact .inr ⟨quote, _, rfl, by decide, by decide⟩
  | array => exact .inr ⟨openBracket, _, rfl, by decide, by decide⟩
  | members => exact .inr ⟨openBrace, _, rfl, by decide, by decide⟩

/-- `null` is nothing, any other value is taken as without the choice. -/
theorem IsValue.takes_optional {read : Reader α} {result : Option α} (hv : IsValue v)
    (h : Takes read v result) :
    Takes (optional read) v (if v = utf8 "null" then some none else result.map some) := by
  refine .of_opens hv.opens (fun bytes => by simp only [optional, skipBlanks_skipBlanks])
    fun rest hr => ?_
  rcases hv.null_or with rfl | ⟨b, more, rfl, hb, hn⟩
  · show (afterNull (utf8 "ull" ++ rest) >>= fun rest => Except.ok (none, rest)).toOption = _
    rw [afterNull_append]
    rfl
  · have hread := h .none rest hr
    rw [Blanks.bytes_none, List.nil_append] at hread
    have hne : ¬ b :: more = utf8 "null" := fun he => hn (List.cons.inj he).1
    rw [if_neg hne, List.cons_append, optional_other hb hn, ← List.cons_append, hread]
    cases result <;> rfl

lemma IsValue.local_optional {read : Reader α} (hv : IsValue v) (h : Local read v) :
    Local (optional read) v := (hv.takes_optional h).local

lemma sequence_other {read : Nat → Reader α} {b : UInt8} (hb : isBlank b = false)
    (h : b ≠ openBracket) (room : Nat) (rest : List UInt8) :
    (sequence room read (b :: rest)).toOption = none := by
  rw [sequence, skipBlanks_cons hb]
  split
  · next he => exact absurd (List.cons.inj he).1 h
  · rfl

lemma sequence_skips (read : Nat → Reader α) (room : Nat) (bytes : List UInt8) :
    sequence room read bytes = sequence room read (skipBlanks bytes) := by
  simp only [sequence, skipBlanks_skipBlanks]

/-- A list is taken by its items. -/
theorem takes_sequence {read : Nat → Reader α} {room : Nat} {gap : Blanks} {items : List Item}
    (result : List UInt8 → Option α)
    (h : ∀ item ∈ items, Opens item.value ∧ Takes (read room) item.value (result item.value)) :
    Takes (sequence (room + 1) read) (listBytes gap items)
      (items.mapM fun item => result item.value) := by
  refine .of_opens ⟨openBracket, _, rfl, by decide, by decide, by decide⟩ (sequence_skips read _)
    fun rest _ => ?_
  rw [← list_content (read room) result gap rest h]
  simp only [listBytes, List.cons_append, List.append_assoc, List.nil_append]
  rfl

/-- A list is taken by its items, anything else is refused. -/
lemma IsValue.local_sequence {read : Nat → Reader α} (hv : IsValue v)
    (h : ∀ room v, IsValue v → Local (read room) v) (room : Nat) :
    Local (sequence room read) v := by
  have hopens := hv.opens
  cases hv with
  | @array gap items values =>
    cases room with
    | zero => exact .of_settled hopens (sequence_skips read 0) ⟨none, fun rest _ => rfl⟩
    | succ room =>
      exact (takes_sequence (outcome (read room)) fun item hi =>
        ⟨(values item hi).opens, h room item.value (values item hi)⟩).local
  | numeral n =>
    obtain ⟨b, more, hb, hd⟩ := n.first
    have ⟨h₁, _, h₂, _⟩ := number_first hd
    refine .of_settled hopens (sequence_skips read room) ⟨none, fun rest _ => ?_⟩
    rw [hb]
    exact sequence_other h₁ h₂ room (more ++ rest)
  | null | yes | no | string | members =>
    exact .of_settled hopens (sequence_skips read room) ⟨none, fun rest _ => rfl⟩

end Containers

/-! ## Values of any kind -/

lemma value_null (room : Nat) (rest : List UInt8) :
    value room (utf8 "null" ++ rest) = .ok (.null, rest) := by
  have h : value room (utf8 "null" ++ rest) =
      afterNull (utf8 "ull" ++ rest) >>= fun rest => .ok (.null, rest) := by cases room <;> rfl
  rw [h, afterNull_append]
  rfl

lemma value_true (room : Nat) (rest : List UInt8) :
    value room (utf8 "true" ++ rest) = .ok (.boolean true, rest) := by
  have h : value room (utf8 "true" ++ rest) =
      afterTrue (utf8 "rue" ++ rest) >>= fun rest => .ok (.boolean true, rest) := by
    cases room <;> rfl
  rw [h, afterTrue_append]
  rfl

lemma value_false (room : Nat) (rest : List UInt8) :
    value room (utf8 "false" ++ rest) = .ok (.boolean false, rest) := by
  have h : value room (utf8 "false" ++ rest) =
      afterFalse (utf8 "alse" ++ rest) >>= fun rest => .ok (.boolean false, rest) := by
    cases room <;> rfl
  rw [h, afterFalse_append]
  rfl

lemma value_minus (room : Nat) (rest : List UInt8) :
    value room (minus :: rest) =
      Number.read true rest >>= fun p => .ok (.number p.1, p.2) := by
  cases room <;> rfl

lemma value_quote (room : Nat) (rest : List UInt8) :
    value room (quote :: rest) = Text.read rest >>= fun p => .ok (.text p.1, p.2) := by
  cases room <;> rfl

/-- Reads the next member of an object into its sorted members. -/
def valueField (room : Nat) (name : String) (sorted : List (String × Value)) :
    Reader (List (String × Value)) := do
  separator
  return insertField name (← value room) sorted

lemma value_list (room : Nat) (rest : List UInt8) :
    value (room + 1) (openBracket :: rest) =
      list (value room) rest >>= fun p => .ok (.array p.1, p.2) := rfl

lemma value_object (room : Nat) (rest : List UInt8) :
    value (room + 1) (openBrace :: rest) =
      object (valueField room) [] rest >>= fun p => .ok (.object p.1, p.2) := rfl

lemma value_digit {b : UInt8} (hb : isDigit b) (room : Nat) (rest : List UInt8) :
    value room (b :: rest) =
      Number.read false (b :: rest) >>= fun p => .ok (.number p.1, p.2) := by
  unfold value
  rw [skipBlanks_cons (isBlank_of_isDigit hb)]
  split
  case h_9 he =>
    obtain ⟨rfl, rfl⟩ := List.cons.inj he
    rw [if_pos hb]
    rfl
  case h_1 he => cases he
  all_goals next he => exact absurd (List.cons.inj he).1 (ne_of_isDigit hb rfl)

lemma value_numeral (room : Nat) (n : Numeral) (rest : List UInt8) :
    value room (n.bytes ++ rest) =
      Number.read n.negative (n.magnitudeBytes ++ rest) >>= fun p => .ok (.number p.1, p.2) := by
  cases hneg : n.negative with
  | true =>
    rw [n.bytes_negative hneg]
    exact value_minus room _
  | false =>
    obtain ⟨b, more, hb, hm, hd⟩ := n.bytes_positive hneg
    simp only [hb, hm, List.cons_append]
    exact value_digit hd room _

lemma value_skips (room : Nat) (bytes : List UInt8) :
    value room bytes = value room (skipBlanks bytes) := by
  unfold value
  rw [skipBlanks_skipBlanks]

/-- What the members of an object make of its sorted members. -/
def valueStep (room : Nat) (key : String) (v : List UInt8) (sorted : List (String × Value)) :
    Option (List (String × Value)) :=
  (outcome (value room) v).map (insertField key · sorted)

/-- Every value is taken, or refused for its depth, a number or a string in it. -/
theorem IsValue.local_value {v : List UInt8} (hv : IsValue v) : ∀ room, Local (value room) v := by
  induction hv with
  | null =>
    exact fun room => .of_settled IsValue.null.opens (value_skips room)
      ⟨some Value.null, fun rest _ => congrArg _ (value_null room rest)⟩
  | yes =>
    exact fun room => .of_settled IsValue.yes.opens (value_skips room)
      ⟨some (Value.boolean true), fun rest _ => congrArg _ (value_true room rest)⟩
  | no =>
    exact fun room => .of_settled IsValue.no.opens (value_skips room)
      ⟨some (Value.boolean false), fun rest _ => congrArg _ (value_false room rest)⟩
  | numeral n =>
    intro room
    obtain ⟨result, h⟩ := Number.settled_read n n.negative
    refine .of_settled n.opens (value_skips room) ⟨result.map Value.number, fun rest hr => ?_⟩
    show (value room (n.bytes ++ rest)).toOption = _
    rw [value_numeral, toOption_bind, h rest hr]
    cases result <;> rfl
  | @string w hw =>
    intro room
    refine .of_settled (IsValue.string hw).opens (value_skips room)
      ⟨(Text.nameOf w).map Value.text, fun rest _ => ?_⟩
    simp only [List.cons_append, List.append_assoc, List.nil_append]
    rw [value_quote, toOption_bind, hw.names rest]
    cases Text.nameOf w <;> rfl
  | @array gap items values ih =>
    intro room
    refine .of_settled (IsValue.array values).opens (value_skips room) ?_
    cases room with
    | zero => exact ⟨none, fun rest _ => rfl⟩
    | succ room =>
      refine ⟨(items.mapM fun item => outcome (value room) item.value).map Value.array,
        fun rest _ => ?_⟩
      have h := list_content (value room) (outcome (value room)) gap rest
        fun item hi => ⟨(values item hi).opens, ih item hi room⟩
      simp only [listBytes, List.cons_append, List.append_assoc, List.nil_append]
      rw [value_list, toOption_bind, h]
      cases (items.mapM fun item => outcome (value room) item.value) <;> rfl
  | @members gap members names values ih =>
    intro room
    refine .of_settled (IsValue.members names values).opens (value_skips room) ?_
    cases room with
    | zero => exact ⟨none, fun rest _ => rfl⟩
    | succ room =>
      refine ⟨(foldMembers Text.nameOf (valueStep room) members []).map Value.object,
        fun rest _ => ?_⟩
      have h := object_content (valueField room) Text.nameOf (valueStep room) gap rest []
        (fun m hm => (names m hm).names) fun m hm key _ sorted => (Takes.map (ih m hm room)).field
      simp only [objectBytes, List.cons_append, List.append_assoc, List.nil_append]
      rw [value_object, toOption_bind, h]
      cases foldMembers Text.nameOf (valueStep room) members [] <;> rfl

end CheckIn.Json
