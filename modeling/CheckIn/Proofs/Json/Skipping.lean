/-
# Passing over values

A value that nobody wants is passed over if it is a value of the grammar, and nothing else is
asked of it: no limit on its depth or its numbers, and no text that its strings would spell.

The induction is on the value.  Each container and each item has a byte of its own, so that the
length of a value pays for the steps of passing over it.
-/
import CheckIn.Proofs.Json.Values

namespace CheckIn.Json
open Byte

/-! ## Scalars -/

lemma skipFrom_digit {b : UInt8} (hb : isDigit b) (fuel : Nat) (rest : List UInt8) :
    skipFrom (fuel + 1) (b :: rest) = Number.skip (b :: rest) := by
  rw [skipFrom, skipBlanks_cons (isBlank_of_isDigit hb)]
  split
  case h_9 he =>
    obtain ⟨rfl, rfl⟩ := List.cons.inj he
    rw [if_pos hb]
  case h_1 he => cases he
  all_goals next he => exact absurd (List.cons.inj he).1 (ne_of_isDigit hb rfl)

lemma skipFrom_blanks (fuel : Nat) (gap : Blanks) (bytes : List UInt8) :
    skipFrom fuel (gap.bytes ++ bytes) = skipFrom fuel bytes := by
  cases fuel with
  | zero => rw [skipFrom, skipFrom]
  | succ fuel => rw [skipFrom, skipBlanks_append, skipFrom]

/-- A number is passed over. -/
lemma skipFrom_numeral (n : Numeral) (fuel : Nat) {rest : List UInt8} (h : Ends rest) :
    skipFrom (fuel + 1) (n.bytes ++ rest) = .ok rest := by
  rw [← Number.skip_magnitude n h]
  cases hneg : n.negative with
  | true =>
    rw [n.bytes_negative hneg]
    rfl
  | false =>
    obtain ⟨b, more, hb, hm, hd⟩ := n.bytes_positive hneg
    simp only [hb, hm, List.cons_append]
    exact skipFrom_digit hd fuel _

/-! ## Lists and objects -/

/-- The value is passed over by as many steps as twice its length. -/
def Skipped (v : List UInt8) : Prop :=
  ∀ fuel rest, 2 * v.length ≤ fuel → Ends rest → skipFrom fuel (v ++ rest) = .ok rest

/-- What follows an item: another one, or the end of the list. -/
def afterItem (fuel : Nat) (bytes : List UInt8) : Except Error (List UInt8) :=
  match skipBlanks bytes with
  | [] => .error (.truncated .list)
  | comma :: rest => skipItems fuel rest
  | closeBracket :: rest => .ok rest
  | _ => .error (.flawed .expectedListSeparator)

lemma skipItems_item {fuel : Nat} {bytes rest : List UInt8}
    (h : skipFrom fuel bytes = .ok rest) : skipItems (fuel + 1) bytes = afterItem fuel rest := by
  rw [skipItems, h]
  rfl

lemma afterItem_comma (fuel : Nat) (gap : Blanks) (rest : List UInt8) :
    afterItem fuel (gap.bytes ++ comma :: rest) = skipItems fuel rest := by
  rw [afterItem, skipBlanks_append, skipBlanks_cons (b := comma) rfl]
  rfl

lemma afterItem_close (fuel : Nat) (gap : Blanks) (rest : List UInt8) :
    afterItem fuel (gap.bytes ++ closeBracket :: rest) = .ok rest := by
  rw [afterItem, skipBlanks_append, skipBlanks_cons (b := closeBracket) rfl]
  rfl

/-- What follows a member: another one, or the end of the object. -/
def afterMember (fuel : Nat) (bytes : List UInt8) : Except Error (List UInt8) :=
  match skipBlanks bytes with
  | [] => .error (.truncated .object)
  | comma :: rest => skipFields fuel rest
  | closeBrace :: rest => .ok rest
  | _ => .error (.flawed .expectedObjectSeparator)

lemma skipFields_member {fuel : Nat} {gap before : Blanks} {bytes more rest : List UInt8}
    (hname : Text.skip bytes = .ok (before.bytes ++ colon :: more))
    (hvalue : skipFrom fuel more = .ok rest) :
    skipFields (fuel + 1) (gap.bytes ++ quote :: bytes) = afterMember fuel rest := by
  rw [skipFields, skipBlanks_append, skipBlanks_cons (b := quote) rfl]
  show (Text.skip bytes >>= fun rest => separator rest >>= fun p =>
    skipFrom fuel p.2 >>= afterMember fuel) = _
  rw [hname]
  show (separator (before.bytes ++ colon :: more) >>= fun p =>
    skipFrom fuel p.2 >>= afterMember fuel) = _
  rw [separator_colon]
  show (skipFrom fuel more >>= afterMember fuel) = _
  rw [hvalue]
  rfl

lemma afterMember_comma (fuel : Nat) (gap : Blanks) (rest : List UInt8) :
    afterMember fuel (gap.bytes ++ comma :: rest) = skipFields fuel rest := by
  rw [afterMember, skipBlanks_append, skipBlanks_cons (b := comma) rfl]
  rfl

lemma afterMember_close (fuel : Nat) (gap : Blanks) (rest : List UInt8) :
    afterMember fuel (gap.bytes ++ closeBrace :: rest) = .ok rest := by
  rw [afterMember, skipBlanks_append, skipBlanks_cons (b := closeBrace) rfl]
  rfl

lemma content_next (part : List UInt8) (parts : List (List UInt8)) :
    content false (part :: parts) = comma :: (part ++ content false parts) := rfl

/-- The items of a list are passed over, one after the other. -/
lemma skipItems_content : ∀ (items : List Item) (item : Item) (fuel : Nat) (gap : Blanks)
    (rest : List UInt8), (∀ i ∈ item :: items, Skipped i.value) →
    2 * (item.value.length + (content false (items.map Item.bytes)).length) < fuel →
    skipItems fuel (gap.bytes ++ (item.value ++ (item.after.bytes ++
      (content false (items.map Item.bytes) ++ closeBracket :: rest)))) = .ok rest
  | items, item, fuel + 1, gap, rest, h, hf => by
    have hr : Ends (item.after.bytes ++ (content false (items.map Item.bytes) ++
        closeBracket :: rest)) := (ends_content (ends_closeBracket rest)).blanks item.after
    have hskip := h item List.mem_cons_self fuel _ (by omega) hr
    rw [← skipFrom_blanks fuel gap] at hskip
    rw [skipItems_item hskip]
    cases items with
    | nil => exact afterItem_close fuel item.after rest
    | cons next more =>
      have ih := skipItems_content more next fuel next.before rest
        fun i hi => h i (List.mem_cons_of_mem item hi)
      simp only [List.map_cons, content_next, Item.bytes, List.length_append, List.length_cons,
        List.append_assoc, List.cons_append] at hf ih ⊢
      rw [afterItem_comma]
      exact ih (by omega)

/-- The members of an object are passed over, one after the other. -/
lemma skipFields_content : ∀ (members : List Member) (m : Member) (fuel : Nat) (gap : Blanks)
    (rest : List UInt8), (∀ k ∈ m :: members, Quotable k.name ∧ Skipped k.value) →
    2 * (m.tail.length + (content false (members.map Member.bytes)).length) < fuel →
    skipFields fuel (gap.bytes ++ quote :: (m.tail ++
      (content false (members.map Member.bytes) ++ closeBrace :: rest))) = .ok rest
  | members, m, fuel + 1, gap, rest, h, hf => by
    have ⟨hq, hv⟩ := h m List.mem_cons_self
    have hr : Ends (m.after.bytes ++ (content false (members.map Member.bytes) ++
        closeBrace :: rest)) := (ends_content (ends_closeBrace rest)).blanks m.after
    have hlen : 2 * m.value.length ≤ fuel := by
      simp only [Member.tail, List.length_append, List.length_cons] at hf
      omega
    have hskip := hv fuel _ hlen hr
    rw [← skipFrom_blanks fuel m.afterColon] at hskip
    rw [Member.tail]
    simp only [List.append_assoc, List.cons_append]
    rw [skipFields_member (hq.skip _) hskip]
    cases members with
    | nil => exact afterMember_close fuel m.after rest
    | cons next more =>
      have ih := skipFields_content more next fuel next.before rest
        fun i hi => h i (List.mem_cons_of_mem m hi)
      simp only [List.map_cons, content_next, Member.bytes, List.length_append, List.length_cons,
        List.append_assoc, List.cons_append] at hf ih ⊢
      rw [afterMember_comma]
      exact ih (by omega)

/-! ## Values of any kind -/

/-- What follows the opening bracket of a list. -/
def enterList (fuel : Nat) (bytes : List UInt8) : Except Error (List UInt8) :=
  match skipBlanks bytes with
  | [] => .error (.truncated .list)
  | closeBracket :: rest => .ok rest
  | rest => skipItems fuel rest

/-- What follows the opening brace of an object. -/
def enterObject (fuel : Nat) (bytes : List UInt8) : Except Error (List UInt8) :=
  match skipBlanks bytes with
  | [] => .error (.truncated .object)
  | closeBrace :: rest => .ok rest
  | rest => skipFields fuel rest

lemma skipFrom_openBracket (fuel : Nat) (rest : List UInt8) :
    skipFrom (fuel + 1) (openBracket :: rest) = enterList fuel rest := rfl

lemma skipFrom_openBrace (fuel : Nat) (rest : List UInt8) :
    skipFrom (fuel + 1) (openBrace :: rest) = enterObject fuel rest := rfl

lemma enterList_close (fuel : Nat) (gap : Blanks) (rest : List UInt8) :
    enterList fuel (gap.bytes ++ closeBracket :: rest) = .ok rest := by
  rw [enterList, skipBlanks_append, skipBlanks_cons (b := closeBracket) rfl]
  rfl

lemma enterObject_close (fuel : Nat) (gap : Blanks) (rest : List UInt8) :
    enterObject fuel (gap.bytes ++ closeBrace :: rest) = .ok rest := by
  rw [enterObject, skipBlanks_append, skipBlanks_cons (b := closeBrace) rfl]
  rfl

lemma enterList_item (fuel : Nat) (gap : Blanks) {v : List UInt8} (h : Opens v)
    (rest : List UInt8) :
    enterList fuel (gap.bytes ++ (v ++ rest)) = skipItems fuel (v ++ rest) := by
  rw [enterList, skipBlanks_append, h.skipBlanks]
  obtain ⟨b, more, rfl, -, hc, -⟩ := h
  split
  · next he => cases he
  · next he => exact absurd (List.cons.inj he).1 hc
  · rfl

lemma enterObject_member (fuel : Nat) (gap : Blanks) (rest : List UInt8) :
    enterObject fuel (gap.bytes ++ quote :: rest) = skipFields fuel (quote :: rest) := by
  rw [enterObject, skipBlanks_append, skipBlanks_cons (b := quote) rfl]
  rfl

/-- Every value is passed over. -/
lemma IsValue.skipped {v : List UInt8} (hv : IsValue v) : Skipped v := by
  induction hv with
  | null =>
    rintro (_ | fuel) rest hf hr
    · exact absurd hf (by decide)
    · exact afterNull_append rest
  | yes =>
    rintro (_ | fuel) rest hf hr
    · exact absurd hf (by decide)
    · exact afterTrue_append rest
  | no =>
    rintro (_ | fuel) rest hf hr
    · exact absurd hf (by decide)
    · exact afterFalse_append rest
  | numeral n =>
    intro fuel rest hf hr
    have := n.opens.length_pos
    obtain ⟨fuel, rfl⟩ : ∃ k, fuel = k + 1 := ⟨fuel - 1, by omega⟩
    exact skipFrom_numeral n fuel hr
  | @string w hw =>
    rintro (_ | fuel) rest hf hr
    · simp at hf
    · simp only [List.cons_append, List.append_assoc, List.nil_append]
      exact hw.skip rest
  | @array gap items values ih =>
    rintro (_ | fuel) rest hf hr
    · simp [listBytes] at hf
    · simp only [listBytes, List.cons_append, List.append_assoc, List.nil_append,
        List.length_append, List.length_cons] at hf ⊢
      rw [skipFrom_openBracket]
      cases items with
      | nil => exact enterList_close fuel gap rest
      | cons item more =>
        have hitems := skipItems_content more item fuel .none rest ih
        simp only [List.map_cons, content, Item.bytes, List.length_append, if_true,
          List.nil_append, List.append_assoc, Blanks.bytes_none] at hf hitems ⊢
        rw [← List.append_assoc gap.bytes, ← Blanks.bytes_append,
          enterList_item fuel _ (values item List.mem_cons_self).opens]
        exact hitems (by omega)
  | @members gap members names values ih =>
    rintro (_ | fuel) rest hf hr
    · simp [objectBytes] at hf
    · simp only [objectBytes, List.cons_append, List.append_assoc, List.nil_append,
        List.length_append, List.length_cons] at hf ⊢
      rw [skipFrom_openBrace]
      cases members with
      | nil => exact enterObject_close fuel gap rest
      | cons m more =>
        have hmembers := skipFields_content more m fuel .none rest
          fun k hk => ⟨names k hk, ih k hk⟩
        simp only [List.map_cons, content, Member.bytes, List.length_append, List.length_cons,
          if_true, List.nil_append, List.append_assoc, List.cons_append, Blanks.bytes_none]
          at hf hmembers ⊢
        rw [← List.append_assoc gap.bytes, ← Blanks.bytes_append, enterObject_member]
        exact hmembers (by omega)

/-- A value of the grammar is passed over, however deeply it is nested. -/
theorem IsValue.takes_skipValue {v : List UInt8} (hv : IsValue v) :
    Takes skipValue v (some ()) := by
  intro gap rest hr
  have hs := hv.skipped (2 * (gap.bytes ++ (v ++ rest)).length + 1) rest
    (by simp only [List.length_append]; omega) hr
  rw [← skipFrom_blanks _ gap] at hs
  show (skipFrom _ _ >>= fun rest => Except.ok ((), rest)).toOption = _
  rw [hs]
  rfl

end CheckIn.Json
