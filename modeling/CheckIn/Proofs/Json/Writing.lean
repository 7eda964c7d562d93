/-
# Written values

What is written is a value of the grammar, without blanks, and the readers take it back to what
was written: texts over all characters, truth values, whole numbers up to 64 bits, and values of
any kind that are made of these.  Doubles are left out, and the members of an object have to be
in the order of their names, each name once, which is how objects are kept.

Written text is a list of characters and read text a list of bytes; `encoded` goes from the one
to the other.
-/
import CheckIn.Proofs.Json.Meaning
import CheckIn.Json.Writer

namespace CheckIn.Json
open Byte

/-! ## Characters as bytes -/

/-- The bytes of some characters. -/
def encoded (cs : List Char) : List UInt8 := cs.flatMap String.utf8EncodeChar

@[simp] lemma encoded_nil : encoded [] = [] := rfl

@[simp] lemma encoded_cons (c : Char) (cs : List Char) :
    encoded (c :: cs) = String.utf8EncodeChar c ++ encoded cs := rfl

@[simp] lemma encoded_append (cs ds : List Char) :
    encoded (cs ++ ds) = encoded cs ++ encoded ds := List.flatMap_append

lemma utf8_ofList (cs : List Char) : utf8 (String.ofList cs) = encoded cs := by
  rw [utf8, String.toList_ofList]
  rfl

/-- A written text that the reader takes is decoded to what it was written from. -/
lemma whole_written {α : Type} {read : Reader α} {written : List Char} {a : α}
    (h : Takes read (encoded written) (some a)) :
    read.whole (utf8 (String.ofList written)) = .ok a := by
  have := h.whole .none .none
  rw [Blanks.bytes_none, List.nil_append, List.append_nil] at this
  rw [utf8_ofList]
  exact toOption_eq_some_iff.1 this

/-- A character of one byte. -/
lemma utf8EncodeChar_ascii {c : Char} (h : c.toNat ≤ 127) :
    String.utf8EncodeChar c = [UInt8.ofNat c.toNat] := by
  simp only [String.utf8EncodeChar]
  exact if_pos h

/-! ## Texts -/

/-- The digits that write a small number as two hexadecimal digits. -/
lemma hexValue?_digitChar : ∀ k < 16,
    ∃ b, String.utf8EncodeChar (Nat.digitChar k) = [b] ∧ hexValue? b = some k := by
  intro k hk
  have : ∀ k < 16, (Nat.digitChar k).toNat ≤ 127 ∧
      hexValue? (UInt8.ofNat (Nat.digitChar k).toNat) = some k := by decide
  exact ⟨_, utf8EncodeChar_ascii (this k hk).1, (this k hk).2⟩

/-- A control character without a letter of its own is written as its unit. -/
lemma spells_control {c : Char} (hc : c.toNat < 0x20) {w : List UInt8} {s : List Char}
    (h : Spells w s) :
    Spells (encoded ['\\', 'u', '0', '0', Nat.digitChar (c.toNat / 16),
      Nat.digitChar (c.toNat % 16)] ++ w) (c :: s) := by
  obtain ⟨a, ha, hva⟩ := hexValue?_digitChar (c.toNat / 16) (by omega)
  obtain ⟨b, hb, hvb⟩ := hexValue?_digitChar (c.toNat % 16) (by omega)
  have hunit : hexValue4? 0x30 0x30 a b = some c.toNat := by
    have hz : hexValue? 0x30 = some 0 := by decide
    simp only [hexValue4?, hz, hva, hvb, Option.bind_eq_bind, Option.bind_some, Option.pure_def]
    congr 1
    omega
  have := Spells.unit hunit (by omega) h
  rw [Char.ofNat_toNat] at this
  simp only [encoded_cons, ha, hb, encoded_nil]
  exact this

/-- An escaped text is a spelling of it. -/
theorem spells_escape (s : List Char) : Spells (encoded (s.flatMap Text.escape)) s := by
  induction s with
  | nil => exact .nil
  | cons c s ih =>
    rw [List.flatMap_cons, encoded_append]
    unfold Text.escape
    split
    · exact .short (show (quote, '"') ∈ shortEscapes by decide) ih
    · exact .short (show (backslash, '\\') ∈ shortEscapes by decide) ih
    · exact .short (show (lowerB, '\x08') ∈ shortEscapes by decide) ih
    · exact .short (show (lowerF, '\x0c') ∈ shortEscapes by decide) ih
    · exact .short (show (lowerN, '\n') ∈ shortEscapes by decide) ih
    · exact .short (show (lowerR, '\r') ∈ shortEscapes by decide) ih
    · exact .short (show (lowerT, '\t') ∈ shortEscapes by decide) ih
    · next hq hb _ _ _ _ _ =>
      split
      · next hlow => exact spells_control hlow ih
      · next hlow =>
        rw [encoded_cons, encoded_nil, List.append_nil]
        exact .plain (by omega) hq hb ih

lemma encoded_write (s : String) :
    encoded (Text.write s) = quote :: (encoded (s.toList.flatMap Text.escape) ++ [quote]) := by
  rw [Text.write, encoded_cons, encoded_append]
  rfl

lemma isValue_text (s : String) : IsValue (encoded (Text.write s)) := by
  rw [encoded_write]
  exact .string (spells_escape s.toList).quotable

lemma denotes_text (room : Nat) (s : String) :
    Denotes room (encoded (Text.write s)) (.text s) := by
  rw [encoded_write]
  exact .string (spells_escape s.toList)

/-- A written text is taken back. -/
theorem takes_text (wanted : String) (s : String) :
    Takes (text wanted) (encoded (Text.write s)) (some s) := by
  refine .of_opens (isValue_text s).opens
    (fun bytes => by simp only [text, skipBlanks_skipBlanks]) fun rest _ => ?_
  rw [encoded_write]
  simp only [List.cons_append, List.append_assoc, List.nil_append]
  exact (spells_escape s.toList).names rest

/-! ## Truth values -/

lemma denotes_boolean (room : Nat) (b : Bool) :
    Denotes room (encoded (writeBoolean b)) (.boolean b) := by
  cases b
  · exact .no
  · exact .yes

theorem takes_boolean (b : Bool) : Takes boolean (encoded (writeBoolean b)) (some b) :=
  (denotes_boolean 0 b).takes_boolean

/-! ## Whole numbers -/

namespace Number

lemma isDigit_ofNat {c : Char} (h : c.isDigit) :
    String.utf8EncodeChar c = [UInt8.ofNat c.toNat] ∧ isDigit (UInt8.ofNat c.toNat) ∧
      digitValue (UInt8.ofNat c.toNat) = c.toNat - 48 := by
  have hc : 48 ≤ c.toNat ∧ c.toNat ≤ 57 := Char.isDigit_iff_toNat.1 h
  have hval : (UInt8.ofNat c.toNat).toNat = c.toNat := by
    rw [UInt8.toNat_ofNat']
    omega
  refine ⟨utf8EncodeChar_ascii (by omega), ?_, by rw [digitValue, hval]⟩
  simp only [isDigit, Bool.and_eq_true, decide_eq_true_eq, UInt8.le_iff_toNat_le, hval]
  exact hc

lemma isDigit_encoded {ds : List Char} (h : ∀ c ∈ ds, c.isDigit) :
    ∀ b ∈ encoded ds, isDigit b := by
  intro b hb
  obtain ⟨c, hc, hm⟩ := List.mem_flatMap.1 hb
  have ⟨he, hd, _⟩ := isDigit_ofNat (h c hc)
  rw [he, List.mem_singleton] at hm
  rwa [hm]

/-- The value of digits is the same before and after encoding. -/
lemma foldl_encoded {ds : List Char} (h : ∀ c ∈ ds, c.isDigit) : ∀ start,
    (encoded ds).foldl (fun value b => value * 10 + digitValue b) start =
      Nat.ofDigitChars 10 ds start := by
  induction ds with
  | nil => intro start; rfl
  | cons c ds ih =>
    intro start
    have ⟨he, _, hv⟩ := isDigit_ofNat (h c List.mem_cons_self)
    have hstep : start * 10 + digitValue (UInt8.ofNat c.toNat) =
        10 * start + (c.toNat - '0'.toNat) := by
      rw [hv, Nat.mul_comm]
      rfl
    rw [encoded_cons, he, List.singleton_append, List.foldl_cons, hstep,
      ih fun d hd => h d (List.mem_cons_of_mem c hd)]
    rfl

/-- The digits of a natural number. -/
def digitsOf (n : Nat) : Digits where
  bytes := encoded (decimalDigits n)
  ne_nil h := by
    cases hd : decimalDigits n with
    | nil => exact decimalDigits_ne_nil n hd
    | cons c rest =>
      have hc : c.isDigit := isDigit_of_mem_decimalDigits (hd ▸ List.mem_cons_self)
      rw [hd, encoded_cons, (isDigit_ofNat hc).1] at h
      cases h
  digit := isDigit_encoded fun _ => isDigit_of_mem_decimalDigits

lemma digitsOf_zero {n : Nat} {rest : List UInt8} (h : (digitsOf n).bytes = zero :: rest) :
    rest = [] := by
  cases hd : decimalDigits n with
  | nil => exact absurd hd (decimalDigits_ne_nil n)
  | cons c more =>
    have hc : c.isDigit := isDigit_of_mem_decimalDigits (hd ▸ List.mem_cons_self)
    have hb : (digitsOf n).bytes = UInt8.ofNat c.toNat :: encoded more := by
      show encoded (decimalDigits n) = _
      rw [hd, encoded_cons, (isDigit_ofNat hc).1]
      rfl
    obtain ⟨hz, hrest⟩ := List.cons.inj (hb.symm.trans h)
    have hval := (isDigit_ofNat hc).2.2
    rw [hz] at hval
    have hrange : 48 ≤ c.toNat ∧ c.toNat ≤ 57 := Char.isDigit_iff_toNat.1 hc
    have hc0 : c = '0' := Char.ext (UInt32.toNat_inj.1 (by
      show c.toNat = 48
      have : digitValue zero = 0 := by decide
      omega))
    subst hc0
    rw [← hrest, decimalDigits_zero hd]
    rfl

/-- A whole number as a numeral. -/
def numeralOf (negative : Bool) (n : Nat) : Numeral where
  negative
  whole := digitsOf n
  noLeadingZero _ := digitsOf_zero
  fraction := none
  exponent := none

lemma magnitudeBytes_numeralOf (negative : Bool) (n : Nat) :
    (numeralOf negative n).magnitudeBytes = encoded (decimalDigits n) := by
  rw [Numeral.magnitudeBytes]
  exact List.append_nil _

/-- The numeral that writes an integer. -/
def numeralOfInt : Int → Numeral
  | .ofNat n => numeralOf false n
  | .negSucc n => numeralOf true (n + 1)

lemma bytes_numeralOfInt (i : Int) :
    (numeralOfInt i).bytes = encoded (decimalInt i).toList := by
  cases i with
  | ofNat n =>
    rw [decimalInt, decimalNat, String.toList_ofList, ← magnitudeBytes_numeralOf false]
    rfl
  | negSucc n =>
    rw [decimalInt, decimalNat, String.toList_append, encoded_append,
      String.toList_ofList (l := decimalDigits (n + 1)), ← magnitudeBytes_numeralOf true]
    rfl

/-- The digits of a number write this number. -/
lemma value_digitsOf (n : Nat) : (digitsOf n).value = n := by
  show (encoded (decimalDigits n)).foldl (fun value b => value * 10 + digitValue b) 0 = n
  rw [foldl_encoded fun _ => isDigit_of_mem_decimalDigits]
  exact digitsValue_decimalDigits n

/-- The numeral that writes an integer is kept as this integer, if it has at most 64 bits. -/
lemma means_numeralOfInt (i : Int) (h : -0x8000000000000000 ≤ i ∧ i < 0x10000000000000000) :
    (numeralOfInt i).Means (.whole i h) := by
  cases i with
  | ofNat n =>
    have hvalue : (numeralOf false n).whole.value = n := value_digitsOf n
    refine .whole rfl rfl (fun hsign => Bool.noConfusion hsign) ?_ h
    show Int.ofNat n = ((numeralOf false n).whole.value : Int)
    rw [hvalue, Int.ofNat_eq_natCast]
  | negSucc n =>
    have hvalue : (numeralOf true (n + 1)).whole.value = n + 1 := value_digitsOf (n + 1)
    refine .whole rfl rfl (fun _ => ?_) ?_ h
    · show (numeralOf true (n + 1)).whole.value ≠ 0
      rw [hvalue]
      exact Nat.succ_ne_zero n
    · show Int.negSucc n = -((numeralOf true (n + 1)).whole.value : Int)
      rw [hvalue, Int.negSucc_eq, Int.natCast_succ]

end Number

lemma denotes_int (room : Nat) (i : Int)
    (h : -0x8000000000000000 ≤ i ∧ i < 0x10000000000000000) :
    Denotes room (encoded (decimalInt i).toList) (.number (.whole i h)) := by
  rw [← Number.bytes_numeralOfInt]
  exact .numeral (Number.means_numeralOfInt i h)

/-- A written whole number is taken back, if it has at most 64 bits. -/
theorem takes_number (wanted : String) (i : Int)
    (h : -0x8000000000000000 ≤ i ∧ i < 0x10000000000000000) :
    Takes (number wanted) (encoded (decimalInt i).toList) (some (.whole i h)) :=
  (denotes_int 0 i h).takes_number wanted

/-- A signed number of 64 bits is taken back. -/
theorem takes_signed (i : Int64) : Takes signed (encoded (decimalInt i.toInt).toList) (some i) := by
  have hlo := i.le_toInt
  have hhi := i.toInt_lt
  have h := (takes_number "i64" i.toInt (by omega)).signed
  have hfit : -0x8000000000000000 ≤ i.toInt ∧ i.toInt < 0x8000000000000000 := by omega
  rwa [Option.bind_some, signedOf?, if_pos hfit, Int64.ofInt_toInt] at h

/-- A natural number of 64 bits is taken back. -/
theorem takes_unsigned (n : UInt64) :
    Takes unsigned (encoded (decimalDigits n.toNat)) (some n) := by
  have hn := n.toNat_lt
  have hw : encoded (decimalInt (.ofNat n.toNat)).toList = encoded (decimalDigits n.toNat) := by
    rw [decimalInt, decimalNat, String.toList_ofList]
  have h := takes_number "u64" (.ofNat n.toNat) (by simp only [Int.ofNat_eq_natCast]; omega)
  rw [hw] at h
  intro gap rest hr
  have hread := h gap rest hr
  rw [unsigned, toOption_bind_apply, hread, Option.map_some, Option.bind_some]
  have hpos : (0 : Int) ≤ .ofNat n.toNat := Int.natCast_nonneg _
  simp only [if_pos hpos]
  show some (UInt64.ofNat n.toNat, rest) = _
  rw [UInt64.ofNat_toNat]
  rfl

/-! ## Lists and objects -/

lemma encoded_separated (parts : List (List Char)) :
    encoded (separated parts) = content true (parts.map encoded) := by
  induction parts with
  | nil => rfl
  | cons part rest ih =>
    cases rest with
    | nil =>
      show encoded part = [] ++ (encoded part ++ [])
      rw [List.nil_append, List.append_nil]
    | cons next more =>
      rw [separated, encoded_append, encoded_cons, ih]
      · rfl
      · simp

/-- A written item. -/
def writtenItem (written : List Char) : Item := ⟨.none, encoded written, .none⟩

/-- A written member. -/
def writtenMember (field : String × List Char) : Member :=
  ⟨.none, encoded (field.1.toList.flatMap Text.escape), .none, .none, encoded field.2, .none⟩

lemma bytes_writtenItem (written : List Char) :
    (writtenItem written).bytes = encoded written := by
  simp [writtenItem, Item.bytes]

lemma bytes_writtenMember (field : String × List Char) :
    (writtenMember field).bytes = encoded (writeField field.1 field.2) := by
  rw [writeField, encoded_append, encoded_write, Member.bytes, Member.tail]
  simp only [writtenMember, Blanks.bytes_none, List.nil_append, List.append_nil, List.cons_append,
    List.append_assoc, encoded_cons]
  rfl

lemma encoded_writeList (parts : List (List Char)) :
    encoded (writeList parts) = listBytes .none (parts.map writtenItem) := by
  have hparts : (parts.map writtenItem).map Item.bytes = parts.map encoded := by
    rw [List.map_map]
    exact List.map_congr_left fun part _ => bytes_writtenItem part
  rw [writeList, encoded_cons, encoded_append, encoded_separated, listBytes, hparts]
  rfl

lemma encoded_writeObject (fields : List (String × List Char)) :
    encoded (writeObject fields) = objectBytes .none (fields.map writtenMember) := by
  have hparts : (fields.map writtenMember).map Member.bytes =
      (fields.map fun field => writeField field.1 field.2).map encoded := by
    rw [List.map_map, List.map_map]
    exact List.map_congr_left fun field _ => bytes_writtenMember field
  rw [writeObject, encoded_cons, encoded_append, encoded_separated, objectBytes, hparts]
  rfl

lemma names_writtenMember (field : String × List Char) :
    Names (writtenMember field).name (some field.1) := (spells_escape field.1.toList).names

lemma nameOf_writtenMember (field : String × List Char) :
    Text.nameOf (writtenMember field).name = some field.1 := (names_writtenMember field).nameOf_eq

lemma quotable_writtenMember (field : String × List Char) :
    Quotable (writtenMember field).name := (spells_escape field.1.toList).quotable

/-! ## Values of any kind -/

/-- The values that are written without loss: no doubles in them, and objects in the order of
their names, each name once. -/
inductive Exact : Value → Prop
  | null : Exact .null
  | boolean (b : Bool) : Exact (.boolean b)
  | whole (i : Int) (bounds : -0x8000000000000000 ≤ i ∧ i < 0x10000000000000000) :
      Exact (.number (.whole i bounds))
  | text (s : String) : Exact (.text s)
  | array {items : List Value} (exact : ∀ v ∈ items, Exact v) : Exact (.array items)
  | object {fields : List (String × Value)} (sorted : (fields.map Prod.fst).Pairwise (· < ·))
      (exact : ∀ f ∈ fields, Exact f.2) : Exact (.object fields)

mutual

/-- How many containers of a value are inside one another. -/
def depth : Value → Nat
  | .array items => depthItems items + 1
  | .object fields => depthFields fields + 1
  | _ => 0

/-- The depth of the deepest item. -/
def depthItems : List Value → Nat
  | [] => 0
  | v :: rest => max (depth v) (depthItems rest)

/-- The depth of the deepest field. -/
def depthFields : List (String × Value) → Nat
  | [] => 0
  | (_, v) :: rest => max (depth v) (depthFields rest)

end

lemma depth_le_items {v : Value} {items : List Value} (h : v ∈ items) :
    depth v ≤ depthItems items := by
  induction items with
  | nil => cases h
  | cons w rest ih =>
    rw [depthItems]
    rcases List.mem_cons.1 h with rfl | h
    · exact Nat.le_max_left _ _
    · exact Nat.le_trans (ih h) (Nat.le_max_right _ _)

lemma depth_le_fields {f : String × Value} {fields : List (String × Value)} (h : f ∈ fields) :
    depth f.2 ≤ depthFields fields := by
  induction fields with
  | nil => cases h
  | cons g rest ih =>
    rw [depthFields]
    rcases List.mem_cons.1 h with rfl | h
    · exact Nat.le_max_left _ _
    · exact Nat.le_trans (ih h) (Nat.le_max_right _ _)

lemma depthItems_le {items : List Value} {room : Nat} (h : ∀ v ∈ items, depth v ≤ room) :
    depthItems items ≤ room := by
  induction items with
  | nil => exact Nat.zero_le room
  | cons v rest ih =>
    exact Nat.max_le.mpr ⟨h v List.mem_cons_self, ih fun w hw => h w (List.mem_cons_of_mem v hw)⟩

lemma depthFields_le {fields : List (String × Value)} {room : Nat}
    (h : ∀ f ∈ fields, depth f.2 ≤ room) : depthFields fields ≤ room := by
  induction fields with
  | nil => exact Nat.zero_le room
  | cons f rest ih =>
    exact Nat.max_le.mpr ⟨h f List.mem_cons_self, ih fun g hg => h g (List.mem_cons_of_mem f hg)⟩

lemma writeItems_eq (items : List Value) : Value.writeItems items = items.map Value.write := by
  induction items with
  | nil => rfl
  | cons v rest ih => rw [Value.writeItems, ih, List.map_cons]

lemma writeFields_eq (fields : List (String × Value)) :
    Value.writeFields fields = fields.map fun f => (f.1, f.2.write) := by
  induction fields with
  | nil => rfl
  | cons f rest ih => rw [Value.writeFields, ih, List.map_cons]

/-- A name after all others is put at the end. -/
lemma insertField_eq_append {α : Type} {name : String} {a : α} {sorted : List (String × α)}
    (h : ∀ f ∈ sorted, f.1 < name) : insertField name a sorted = sorted ++ [(name, a)] := by
  induction sorted with
  | nil => rfl
  | cons f rest ih =>
    have hf := h f List.mem_cons_self
    have hne : name ≠ f.1 := by
      rintro rfl
      exact String.lt_irrefl _ hf
    rw [insertField, if_neg (String.lt_asymm hf), if_neg hne,
      ih fun g hg => h g (List.mem_cons_of_mem f hg)]
    rfl

lemma foldl_insertField_eq_append {α : Type} {fields : List (String × α)} :
    ∀ kept : List (String × α), ((kept ++ fields).map Prod.fst).Pairwise (· < ·) →
    fields.foldl (fun sorted field => insertField field.1 field.2 sorted) kept =
      kept ++ fields := by
  induction fields with
  | nil => exact fun kept _ => (List.append_nil kept).symm
  | cons f rest ih =>
    intro kept hsorted
    have hlt : ∀ g ∈ kept, g.1 < f.1 := by
      intro g hg
      rw [List.map_append, List.pairwise_append] at hsorted
      exact hsorted.2.2 g.1 (List.mem_map_of_mem hg) f.1 (List.mem_map_of_mem List.mem_cons_self)
    have hsplit : kept ++ f :: rest = kept ++ [f] ++ rest := by simp
    rw [List.foldl_cons, insertField_eq_append hlt, hsplit]
    rw [hsplit] at hsorted
    exact ih (kept ++ [f]) hsorted

/-- Fields in the order of their names are kept as they come. -/
lemma keeps_self {α : Type} {fields : List (String × α)}
    (sorted : (fields.map Prod.fst).Pairwise (· < ·)) : Keeps fields fields := by
  have hself : sortFields fields = fields := foldl_insertField_eq_append [] sorted
  have hkeeps := keeps_sortFields fields
  rwa [hself] at hkeeps

/-- What a text stands for, by the reader. -/
def readAs (room : Nat) (t : List UInt8) : Value := (outcome (value room) t).getD .null

lemma Denotes.readAs_eq {room : Nat} {t : List UInt8} {v : Value} (h : Denotes room t v) :
    readAs room t = v := by
  rw [readAs, h.takes_value.outcome_eq, Option.getD_some]

lemma denotes_array {room : Nat} {items : List Value}
    (h : ∀ v ∈ items, Denotes room (encoded v.write) v) :
    Denotes (room + 1) (encoded (Value.write (.array items))) (.array items) := by
  have hitems : ((items.map Value.write).map writtenItem).map
      (fun item => readAs room item.value) = items := by
    rw [List.map_map, List.map_map]
    exact (List.map_congr_left fun v hv => (h v hv).readAs_eq).trans (List.map_id' items)
  have hdenotes : Denotes (room + 1)
      (listBytes .none ((items.map Value.write).map writtenItem))
      (.array (((items.map Value.write).map writtenItem).map
        fun item => readAs room item.value)) := by
    refine .array (readAs room) fun item hi => ?_
    obtain ⟨w, hw, rfl⟩ := List.mem_map.1 hi
    obtain ⟨v, hv, rfl⟩ := List.mem_map.1 hw
    show Denotes room (encoded v.write) (readAs room (encoded v.write))
    rw [(h v hv).readAs_eq]
    exact h v hv
  rw [hitems] at hdenotes
  rwa [Value.write, encoded_writeList, writeItems_eq]

/-- Written fields are the members of an object. -/
lemma exists_body {room : Nat} {fields : List (String × Value)}
    (h : ∀ f ∈ fields, Denotes room (encoded f.2.write) f.2) :
    ∃ body : Body room, body.bytes = encoded (Value.write (.object fields)) ∧
      body.pairs = fields := by
  let name (w : List UInt8) : String := (Text.nameOf w).getD ""
  have hname : ∀ f : String × Value, name (writtenMember (f.1, f.2.write)).name = f.1 :=
    fun f => by simp only [name, nameOf_writtenMember, Option.getD_some]
  refine ⟨⟨.none, fields.map fun f => writtenMember (f.1, f.2.write), name, readAs room,
    fun m hm => ?_, fun m hm => ?_⟩, ?_, ?_⟩
  · obtain ⟨f, -, rfl⟩ := List.mem_map.1 hm
    rw [hname]
    exact spells_escape f.1.toList
  · obtain ⟨f, hf, rfl⟩ := List.mem_map.1 hm
    show Denotes room (encoded f.2.write) (readAs room (encoded f.2.write))
    rw [(h f hf).readAs_eq]
    exact h f hf
  · rw [Value.write, encoded_writeObject, writeFields_eq, List.map_map]
    rfl
  · rw [Body.pairs, List.map_map]
    refine (List.map_congr_left fun f hf => ?_).trans (List.map_id' fields)
    show (name (writtenMember (f.1, f.2.write)).name, readAs room (encoded f.2.write)) = f
    rw [hname, (h f hf).readAs_eq]

/-- A written value stands for itself, if there is room for its containers. -/
theorem Exact.denotes {v : Value} (h : Exact v) : ∀ {room : Nat}, depth v ≤ room →
    Denotes room (encoded v.write) v := by
  induction h with
  | null => exact fun _ => .null
  | boolean b => exact fun {room} _ => denotes_boolean room b
  | whole i bounds => exact fun {room} _ => denotes_int room i bounds
  | text s => exact fun {room} _ => denotes_text room s
  | @array items _ ih =>
    intro room hroom
    rw [depth] at hroom
    obtain ⟨room, rfl⟩ : ∃ k, room = k + 1 := ⟨room - 1, by omega⟩
    refine denotes_array fun v hv => ih v hv ?_
    exact Nat.le_trans (depth_le_items hv) (Nat.le_of_succ_le_succ hroom)
  | @object fields sorted _ ih =>
    intro room hroom
    rw [depth] at hroom
    obtain ⟨room, rfl⟩ : ∃ k, room = k + 1 := ⟨room - 1, by omega⟩
    have hfields : ∀ f ∈ fields, Denotes room (encoded f.2.write) f.2 := fun f hf =>
      ih f hf (Nat.le_trans (depth_le_fields hf) (Nat.le_of_succ_le_succ hroom))
    obtain ⟨body, hbytes, hpairs⟩ := exists_body hfields
    rw [← hbytes]
    exact body.denotes (hpairs.symm ▸ keeps_self sorted)

/-- No doubles in a value. -/
inductive WithoutReals : Value → Prop
  | null : WithoutReals .null
  | boolean (b : Bool) : WithoutReals (.boolean b)
  | whole (i : Int) (bounds : -0x8000000000000000 ≤ i ∧ i < 0x10000000000000000) :
      WithoutReals (.number (.whole i bounds))
  | text (s : String) : WithoutReals (.text s)
  | array {items : List Value} (without : ∀ v ∈ items, WithoutReals v) :
      WithoutReals (.array items)
  | object {fields : List (String × Value)} (without : ∀ f ∈ fields, WithoutReals f.2) :
      WithoutReals (.object fields)

lemma Exact.withoutReals {v : Value} (h : Exact v) : WithoutReals v := by
  induction h with
  | null => exact .null
  | boolean b => exact .boolean b
  | whole i bounds => exact .whole i bounds
  | text s => exact .text s
  | array _ ih => exact .array ih
  | object _ _ ih => exact .object ih

/-- What a text stands for is written without loss, if no doubles are in it. -/
theorem Denotes.exact {room : Nat} {t : List UInt8} {v : Value} (h : Denotes room t v)
    (hreals : WithoutReals v) : Exact v ∧ depth v ≤ room := by
  induction h with
  | null => exact ⟨.null, Nat.zero_le _⟩
  | yes => exact ⟨.boolean true, Nat.zero_le _⟩
  | no => exact ⟨.boolean false, Nat.zero_le _⟩
  | numeral =>
    cases hreals with
    | whole i bounds => exact ⟨.whole i bounds, Nat.zero_le _⟩
  | string => exact ⟨.text _, Nat.zero_le _⟩
  | @array room gap items meaning values ih =>
    cases hreals with
    | array hreals =>
      have hitems : ∀ v ∈ items.map fun item => meaning item.value, Exact v ∧ depth v ≤ room := by
        intro v hv
        have hreals := hreals v hv
        obtain ⟨item, hi, rfl⟩ := List.mem_map.1 hv
        exact ih item hi hreals
      exact ⟨.array fun v hv => (hitems v hv).1,
        Nat.succ_le_succ (depthItems_le fun v hv => (hitems v hv).2)⟩
  | @members room gap members name meaning fields names values kept ih =>
    cases hreals with
    | object hreals =>
      have hfields : ∀ f ∈ fields, Exact f.2 ∧ depth f.2 ≤ room := by
        intro f hf
        obtain ⟨m, hm, hvalue⟩ := List.mem_map.1 (kept.mem_pairs hf)
        have hreals := hreals f hf
        rw [← hvalue] at hreals ⊢
        exact ih m hm hreals
      exact ⟨.object kept.sorted fun f hf => (hfields f hf).1,
        Nat.succ_le_succ (depthFields_le fun f hf => (hfields f hf).2)⟩

end CheckIn.Json
