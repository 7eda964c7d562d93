/-
# The grammar of JSON text

What the text of a JSON value consists of, said without a reader.  A value is a sequence of
bytes; what stands between the quotes of a string may be any bytes with well formed escapes,
and only the strings that spell a text in characters, `Spells`, have a name to be known by.

Between two tokens there may be blanks.  The items of a list and the members of an object carry
the blanks around them, and `content` puts them together with commas.
-/
import CheckIn.Json.Text
import CheckIn.Json.Reader
import Mathlib.Data.List.DropRight
import Mathlib.Tactic.Common

namespace CheckIn.Json
open Byte

/-! ## Blanks -/

/-- The bytes between two tokens. -/
structure Blanks where
  bytes : List UInt8
  blank : ∀ b ∈ bytes, isBlank b

/-- No blanks at all. -/
def Blanks.none : Blanks := ⟨[], by simp⟩

@[simp] lemma Blanks.bytes_none : Blanks.none.bytes = [] := rfl

/-- Blanks and more blanks. -/
def Blanks.append (a b : Blanks) : Blanks :=
  ⟨a.bytes ++ b.bytes, fun c hc => (List.mem_append.1 hc).elim (a.blank c) (b.blank c)⟩

@[simp] lemma Blanks.bytes_append (a b : Blanks) : (a.append b).bytes = a.bytes ++ b.bytes := rfl

/-- Blanks at the beginning are passed over. -/
@[simp] lemma skipBlanks_append (gap : Blanks) (bytes : List UInt8) :
    skipBlanks (gap.bytes ++ bytes) = skipBlanks bytes := by
  obtain ⟨blanks, h⟩ := gap
  induction blanks with
  | nil => rfl
  | cons b rest ih =>
    have hb : isBlank b := h b List.mem_cons_self
    rw [List.cons_append, skipBlanks, List.dropWhile_cons_of_pos hb]
    exact ih fun c hc => h c (List.mem_cons_of_mem b hc)

lemma skipBlanks_cons {b : UInt8} (h : isBlank b = false) (bytes : List UInt8) :
    skipBlanks (b :: bytes) = b :: bytes := by
  rw [skipBlanks, List.dropWhile_cons_of_neg (by simp [h])]

@[simp] lemma skipBlanks_skipBlanks (bytes : List UInt8) :
    skipBlanks (skipBlanks bytes) = skipBlanks bytes :=
  List.dropWhile_idempotent isBlank bytes

@[simp] lemma skipBlanks_blanks (gap : Blanks) : skipBlanks gap.bytes = [] := by
  simpa [skipBlanks] using skipBlanks_append gap []

/-- What may follow a value: nothing, a blank, a comma, or the end of a container. -/
def Ends : List UInt8 → Prop
  | [] => True
  | b :: _ => isBlank b ∨ b = comma ∨ b = closeBracket ∨ b = closeBrace

@[simp] lemma ends_nil : Ends [] := trivial

@[simp] lemma ends_comma (rest : List UInt8) : Ends (comma :: rest) := .inr (.inl rfl)

@[simp] lemma ends_closeBracket (rest : List UInt8) : Ends (closeBracket :: rest) :=
  .inr (.inr (.inl rfl))

@[simp] lemma ends_closeBrace (rest : List UInt8) : Ends (closeBrace :: rest) :=
  .inr (.inr (.inr rfl))

lemma Ends.blanks (gap : Blanks) {rest : List UInt8} (h : Ends rest) :
    Ends (gap.bytes ++ rest) := by
  obtain ⟨blanks, hb⟩ := gap
  cases blanks with
  | nil => exact h
  | cons b _ => exact .inl (hb b List.mem_cons_self)

/-- A byte after a value is none of the bytes that go on with a number. -/
lemma Ends.not_number {b : UInt8} {rest : List UInt8} (h : Ends (b :: rest)) :
    isDigit b = false ∧ b ≠ point ∧ b ≠ lowerE ∧ b ≠ upperE := by
  have : b = 0x20 ∨ b = 0x09 ∨ b = 0x0a ∨ b = 0x0d ∨ b = comma ∨ b = closeBracket ∨
      b = closeBrace := by
    simpa [Ends, isBlank, or_assoc] using h
  obtain rfl | rfl | rfl | rfl | rfl | rfl | rfl := this <;> decide

/-! ## Numbers -/

/-- At least one digit. -/
structure Digits where
  bytes : List UInt8
  ne_nil : bytes ≠ []
  digit : ∀ b ∈ bytes, isDigit b

/-- The exponent of a number. -/
structure Exponent where
  /-- Whether the mark is an upper case letter. -/
  upper : Bool
  /-- The sign, if there is one; `true` for minus. -/
  sign : Option Bool
  digits : Digits

/-- A number. -/
structure Numeral where
  negative : Bool
  whole : Digits
  /-- A number does not begin with a zero before other digits. -/
  noLeadingZero : ∀ rest, whole.bytes = zero :: rest → rest = []
  fraction : Option Digits
  exponent : Option Exponent

/-- The written sign of an exponent. -/
def Exponent.signBytes : Option Bool → List UInt8
  | none => []
  | some false => [plus]
  | some true => [minus]

def Exponent.bytes (e : Exponent) : List UInt8 :=
  (if e.upper then upperE else lowerE) :: (signBytes e.sign ++ e.digits.bytes)

namespace Numeral

/-- The exponent, if there is one. -/
def exponentBytes : Option Exponent → List UInt8
  | none => []
  | some e => e.bytes

/-- The fraction, if there is one. -/
def fractionBytes : Option Digits → List UInt8
  | none => []
  | some d => point :: d.bytes

/-- A number without its sign. -/
def magnitudeBytes (n : Numeral) : List UInt8 :=
  n.whole.bytes ++ (fractionBytes n.fraction ++ exponentBytes n.exponent)

def bytes (n : Numeral) : List UInt8 :=
  (if n.negative then [minus] else []) ++ n.magnitudeBytes

end Numeral

/-! ## Strings -/

/-- The letters that may stand after a backslash, each with its character; `u` is not among
them. -/
def shortEscapes : List (UInt8 × Char) :=
  [(quote, '"'), (backslash, '\\'), (slash, '/'), (lowerB, '\x08'), (lowerF, '\x0c'),
    (lowerN, '\n'), (lowerR, '\r'), (lowerT, '\t')]

/-- What may stand between quotes: bytes that are not control characters, with well formed
escapes. -/
inductive Quotable : List UInt8 → Prop
  | nil : Quotable []
  | plain {b : UInt8} {w : List UInt8} : 0x20 ≤ b → b ≠ quote → b ≠ backslash → Quotable w →
      Quotable (b :: w)
  | short {letter : UInt8} {c : Char} {w : List UInt8} : (letter, c) ∈ shortEscapes →
      Quotable w → Quotable (backslash :: letter :: w)
  | unit {a b c d : UInt8} {unit : Nat} {w : List UInt8} : hexValue4? a b c d = some unit →
      Quotable w → Quotable (backslash :: lowerU :: a :: b :: c :: d :: w)

/-- The ways to write a text between quotes: each character as itself, by its letter, or by one
or two units of sixteen bits. -/
inductive Spells : List UInt8 → List Char → Prop
  | nil : Spells [] []
  | plain {c : Char} {w : List UInt8} {s : List Char} : 0x20 ≤ c.toNat → c ≠ '"' → c ≠ '\\' →
      Spells w s → Spells (String.utf8EncodeChar c ++ w) (c :: s)
  | short {letter : UInt8} {c : Char} {w : List UInt8} {s : List Char} :
      (letter, c) ∈ shortEscapes → Spells w s → Spells (backslash :: letter :: w) (c :: s)
  | unit {a b c d : UInt8} {unit : Nat} {w : List UInt8} {s : List Char} :
      hexValue4? a b c d = some unit → ¬ (0xd800 ≤ unit ∧ unit ≤ 0xdfff) → Spells w s →
      Spells (backslash :: lowerU :: a :: b :: c :: d :: w) (Char.ofNat unit :: s)
  | pair {a b c d e f g h : UInt8} {leading trailing : Nat} {w : List UInt8} {s : List Char} :
      hexValue4? a b c d = some leading → 0xd800 ≤ leading → leading ≤ 0xdbff →
      hexValue4? e f g h = some trailing → 0xdc00 ≤ trailing → trailing ≤ 0xdfff → Spells w s →
      Spells (backslash :: lowerU :: a :: b :: c :: d :: backslash :: lowerU :: e :: f :: g :: h ::
          w)
        (Char.ofNat ((leading - 0xd800) * 0x400 + (trailing - 0xdc00) + 0x10000) :: s)

/-- Whether a character may stand between quotes as itself. -/
def isPlain (c : Char) : Bool := decide (0x20 ≤ c.toNat ∧ c ≠ '"' ∧ c ≠ '\\')

/-- A text of plain characters is a spelling of itself. -/
lemma spells_self {s : List Char} (h : s.all isPlain) :
    Spells (s.flatMap String.utf8EncodeChar) s := by
  induction s with
  | nil => exact .nil
  | cons c s ih =>
    rw [List.all_cons, Bool.and_eq_true] at h
    obtain ⟨hlow, hq, hb⟩ := of_decide_eq_true h.1
    exact .plain hlow hq hb (ih h.2)

/-! ## Lists and objects -/

/-- An item of a list with the blanks around it. -/
structure Item where
  before : Blanks
  value : List UInt8
  after : Blanks

def Item.bytes (item : Item) : List UInt8 :=
  item.before.bytes ++ (item.value ++ item.after.bytes)

/-- A member of an object with the blanks around its parts. -/
structure Member where
  before : Blanks
  /-- What stands between the quotes of the name. -/
  name : List UInt8
  beforeColon : Blanks
  afterColon : Blanks
  value : List UInt8
  after : Blanks

/-- A member from after the first quote of its name. -/
def Member.tail (m : Member) : List UInt8 :=
  m.name ++ quote :: (m.beforeColon.bytes ++ colon ::
    (m.afterColon.bytes ++ (m.value ++ m.after.bytes)))

def Member.bytes (m : Member) : List UInt8 := m.before.bytes ++ quote :: m.tail

/-- Parts with commas between them; with one in front too unless they are the `first`. -/
def content (first : Bool) : List (List UInt8) → List UInt8
  | [] => []
  | part :: rest => (if first then [] else [comma]) ++ (part ++ content false rest)

/-- A list of items; `gap` stands after the opening bracket. -/
def listBytes (gap : Blanks) (items : List Item) : List UInt8 :=
  openBracket :: (gap.bytes ++ (content true (items.map Item.bytes) ++ [closeBracket]))

/-- An object of members; `gap` stands after the opening brace. -/
def objectBytes (gap : Blanks) (members : List Member) : List UInt8 :=
  openBrace :: (gap.bytes ++ (content true (members.map Member.bytes) ++ [closeBrace]))

/-- The text of a value of any kind. -/
inductive IsValue : List UInt8 → Prop
  | null : IsValue (utf8 "null")
  | yes : IsValue (utf8 "true")
  | no : IsValue (utf8 "false")
  | numeral (n : Numeral) : IsValue n.bytes
  | string {w : List UInt8} (quotable : Quotable w) : IsValue (quote :: (w ++ [quote]))
  | array {gap : Blanks} {items : List Item} (values : ∀ item ∈ items, IsValue item.value) :
      IsValue (listBytes gap items)
  | members {gap : Blanks} {members : List Member}
      (names : ∀ m ∈ members, Quotable m.name) (values : ∀ m ∈ members, IsValue m.value) :
      IsValue (objectBytes gap members)

/-! ## How values begin -/

/-- The bytes begin with one that is no blank and closes no container. -/
def Opens (bytes : List UInt8) : Prop :=
  ∃ b rest, bytes = b :: rest ∧ isBlank b = false ∧ b ≠ closeBracket ∧ b ≠ closeBrace

lemma ne_of_isDigit {b mark : UInt8} (h : isDigit b) (hm : isDigit mark = false) : b ≠ mark := by
  rintro rfl
  rw [hm] at h
  cases h

lemma isBlank_of_isDigit {b : UInt8} (h : isDigit b) : isBlank b = false := by
  refine Bool.eq_false_iff.2 fun hb => ?_
  have : b = 0x20 ∨ b = 0x09 ∨ b = 0x0a ∨ b = 0x0d := by
    simpa [isBlank, or_assoc] using hb
  obtain rfl | rfl | rfl | rfl := this <;> exact absurd h (by decide)

lemma Digits.cons (d : Digits) : ∃ b rest, d.bytes = b :: rest ∧ isDigit b := by
  obtain ⟨_ | ⟨b, rest⟩, hne, hd⟩ := d
  · exact absurd rfl hne
  · exact ⟨b, rest, rfl, hd b List.mem_cons_self⟩

lemma Numeral.opens (n : Numeral) : Opens n.bytes := by
  rw [bytes]
  cases n.negative with
  | true => exact ⟨minus, n.magnitudeBytes, rfl, by decide, by decide, by decide⟩
  | false =>
    obtain ⟨b, rest, hb, hd⟩ := n.whole.cons
    refine ⟨b, rest ++ (fractionBytes n.fraction ++ exponentBytes n.exponent), ?_,
      isBlank_of_isDigit hd, ne_of_isDigit hd rfl, ne_of_isDigit hd rfl⟩
    simp [magnitudeBytes, hb]

/-- Every value begins with a byte of its own. -/
lemma IsValue.opens {v : List UInt8} (h : IsValue v) : Opens v := by
  cases h with
  | null => exact ⟨lowerN, utf8 "ull", by decide, by decide, by decide, by decide⟩
  | yes => exact ⟨lowerT, utf8 "rue", by decide, by decide, by decide, by decide⟩
  | no => exact ⟨lowerF, utf8 "alse", by decide, by decide, by decide, by decide⟩
  | numeral n => exact n.opens
  | string => exact ⟨quote, _, rfl, by decide, by decide, by decide⟩
  | array => exact ⟨openBracket, _, rfl, by decide, by decide, by decide⟩
  | members => exact ⟨openBrace, _, rfl, by decide, by decide, by decide⟩

lemma Opens.length_pos {bytes : List UInt8} (h : Opens bytes) : 0 < bytes.length := by
  obtain ⟨b, rest, rfl, -⟩ := h
  simp

/-- Bytes that begin with one of their own are what remains after the blanks before them. -/
lemma Opens.skipBlanks {bytes : List UInt8} (h : Opens bytes) (rest : List UInt8) :
    Byte.skipBlanks (bytes ++ rest) = bytes ++ rest := by
  obtain ⟨b, more, rfl, hb, -⟩ := h
  exact skipBlanks_cons hb _

/-- As many parts as there are bytes, at most. -/
lemma length_le_content {parts : List (List UInt8)} (h : ∀ part ∈ parts, 0 < part.length) :
    ∀ first, parts.length ≤ (content first parts).length := by
  induction parts with
  | nil => simp
  | cons part rest ih =>
    intro first
    have hp := h part List.mem_cons_self
    have hr := ih (fun p hp => h p (List.mem_cons_of_mem part hp)) false
    simp only [content, List.length_append, List.length_cons]
    omega

/-- After one part of several there is a comma or the end of the container. -/
lemma ends_content {parts : List (List UInt8)} {rest : List UInt8} (h : Ends rest) :
    Ends (content false parts ++ rest) := by
  cases parts with
  | nil => exact h
  | cons part more => exact ends_comma _

end CheckIn.Json
