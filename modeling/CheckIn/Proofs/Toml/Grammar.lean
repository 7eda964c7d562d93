/-
# The grammar of TOML values

What the text of a TOML value consists of, said without a reader.  Of the parts of which there are
many forms each is a structure that is its own proof of being well formed, with the characters it
stands for; strings, which are recursive, and values are inductive predicates on characters.

Three bounds are not those of the grammar but of every reader that keeps numbers in 64 bits and
its own recursion in check: `IsValue room` are the values in which no more than `room` arrays and
tables are open at once, a `Name` has less than `tooManyParts` parts, and numbers `Fit`.
-/
import CheckIn.Toml.Reader
import Mathlib.Tactic

namespace CheckIn.Toml

/-! ## Between the tokens -/

/-- Spaces and tabs. -/
structure Blanks where
  chars : List Char
  blank : ∀ c ∈ chars, isBlank c

/-- No blank. -/
def Blanks.none : Blanks := ⟨[], List.forall_mem_nil _⟩

/-- One space. -/
def Blanks.space : Blanks := ⟨[' '], List.forall_mem_singleton.2 rfl⟩

/-- A line break of either kind. -/
inductive Break
  | feed
  | returnFeed

def Break.chars : Break → List Char
  | feed => ['\n']
  | returnFeed => ['\r', '\n']

/-- A comment, without the break that ends its line. -/
structure Comment where
  text : List Char
  plain : ∀ c ∈ text, isPlain c

def Comment.chars (comment : Comment) : List Char := '#' :: comment.text

/-- Blanks, line breaks, and comments that end with their lines. -/
inductive IsGap : List Char → Prop
  | nil : IsGap []
  | blank {c : Char} {w : List Char} : isBlank c → IsGap w → IsGap (c :: w)
  | line (b : Break) {w : List Char} : IsGap w → IsGap (b.chars ++ w)
  | comment (comment : Comment) (b : Break) {w : List Char} : IsGap w →
      IsGap (comment.chars ++ (b.chars ++ w))

/-- What may stand around the items of an array. -/
structure Gap where
  chars : List Char
  isGap : IsGap chars

/-- The marks that may come next after a value and the blanks behind it. -/
def isEnd (c : Char) : Bool :=
  c = '\n' || c = '\r' || c = '#' || c = ',' || c = ']' || c = '\x7d'

/-- The blanks and these marks: what may stand right after a value. -/
def followers : List Char := [' ', '\t', '\n', '\r', '#', ',', ']', '\x7d']

/-- What may follow a value: nothing, or one of these marks after blanks. -/
def Ends (rest : List Char) : Prop := ∀ c w, skipBlanks rest = c :: w → isEnd c

section Between

variable {c d : Char} {w rest : List Char}

lemma isBlank_iff : isBlank c ↔ c = ' ' ∨ c = '\t' := by
  simp only [isBlank, Bool.or_eq_true, decide_eq_true_eq]

lemma skipBlanks_cons (h : isBlank c = false) (w : List Char) : skipBlanks (c :: w) = c :: w :=
  List.dropWhile_cons_of_neg (by simp [h])

lemma skipBlanks_cons_of_isBlank (h : isBlank c) (w : List Char) :
    skipBlanks (c :: w) = skipBlanks w :=
  List.dropWhile_cons_of_pos h

lemma Blanks.skipBlanks (blanks : Blanks) (rest : List Char) :
    Toml.skipBlanks (blanks.chars ++ rest) = Toml.skipBlanks rest :=
  List.dropWhile_append_of_pos blanks.blank

lemma ends_cons (h : isEnd c) (w : List Char) : Ends (c :: w) := by
  intro d v hd
  have hblank : isBlank c = false := by
    by_contra hb
    rw [Bool.not_eq_false, isBlank_iff] at hb
    obtain rfl | rfl := hb <;> exact absurd h (by decide)
  rw [skipBlanks_cons hblank] at hd
  rwa [← (List.cons.inj hd).1]

lemma Break.ends (b : Break) (rest : List Char) : Ends (b.chars ++ rest) := by
  cases b <;> exact ends_cons (by decide) _

lemma Comment.ends (comment : Comment) (rest : List Char) : Ends (comment.chars ++ rest) :=
  ends_cons (by decide) _

lemma Ends.blanks (blanks : Blanks) (h : Ends rest) : Ends (blanks.chars ++ rest) := by
  intro c w hc
  rw [blanks.skipBlanks] at hc
  exact h c w hc

lemma Ends.gap (gap : Gap) (h : Ends rest) : Ends (gap.chars ++ rest) := by
  obtain ⟨chars, hgap⟩ := gap
  show Ends (chars ++ rest)
  induction hgap with
  | nil => exact h
  | @blank c w hb _ ih =>
    intro d v hd
    rw [List.cons_append, skipBlanks_cons_of_isBlank hb] at hd
    exact ih d v hd
  | line b _ _ =>
    rw [List.append_assoc]
    exact b.ends _
  | comment comment b _ _ =>
    rw [List.append_assoc]
    exact comment.ends _

/-- After a value there is a blank or one of the marks. -/
lemma Ends.head (h : Ends (c :: w)) : isBlank c ∨ isEnd c := by
  by_cases hb : isBlank c
  · exact .inl hb
  · exact .inr (h c w (skipBlanks_cons (Bool.eq_false_iff.2 hb) w))

/-- What holds of none of the characters that may follow a value does not hold of the next one. -/
lemma Ends.eq_false (h : Ends (c :: w)) {p : Char → Bool}
    (hp : followers.all fun d => !p d) : p c = false := by
  have hmem : c ∈ followers := by
    have hc := h.head
    simp only [isBlank_iff, isEnd, Bool.or_eq_true, decide_eq_true_eq] at hc
    simp only [followers, List.mem_cons, List.not_mem_nil, or_false]
    tauto
  simpa using List.all_eq_true.1 hp c hmem

/-- No other character follows a value. -/
lemma Ends.ne (h : Ends rest) (hb : isBlank d = false) (he : isEnd d = false) (w : List Char) :
    rest ≠ d :: w := by
  rintro rfl
  obtain hd | hd := h.head
  · exact absurd hd (by simp [hb])
  · exact absurd hd (by simp [he])

end Between

/-- Parts with a mark between each two of them. -/
def joined (mark : Char) (first : List Char) : List (List Char) → List Char
  | [] => first
  | next :: rest => first ++ mark :: joined mark next rest

/-- Of joined parts the first one comes first. -/
lemma exists_joined (mark : Char) (first : List Char) (more : List (List Char)) :
    ∃ tail, joined mark first more = first ++ tail := by
  cases more with
  | nil => exact ⟨[], (List.append_nil first).symm⟩
  | cons next rest => exact ⟨_, rfl⟩

/-! ## Numbers -/

/-- Digits in some base, between any two of which an underscore may stand. -/
structure Digits (isDigit : Char → Bool) where
  first : Char
  /-- The digits after the first one, each with whether an underscore stands before it. -/
  more : List (Bool × Char)
  digit_first : isDigit first
  digit_more : ∀ d ∈ more, isDigit d.2

namespace Digits

variable {isDigit : Char → Bool}

/-- The characters of the digits after the first one. -/
def moreChars (more : List (Bool × Char)) : List Char :=
  more.flatMap fun d => if d.1 then ['_', d.2] else [d.2]

def chars (d : Digits isDigit) : List Char := d.first :: moreChars d.more

/-- The digits themselves. -/
def digits (d : Digits isDigit) : List Char := d.first :: d.more.map Prod.snd

end Digits

/-- The written sign of a number, if there is one; `true` is a minus. -/
def signChars : Option Bool → List Char
  | none => []
  | some false => ['+']
  | some true => ['-']

/-- The exponent of a number. -/
structure Exponent where
  /-- Whether the mark is an upper case letter. -/
  upper : Bool
  sign : Option Bool
  digits : Digits Char.isDigit

namespace Exponent

def chars (e : Exponent) : List Char :=
  (if e.upper then 'E' else 'e') :: (signChars e.sign ++ e.digits.chars)

def value (e : Exponent) : Int :=
  if e.sign = some true then -(digitsValue e.digits.digits : Int) else digitsValue e.digits.digits

end Exponent

/-- A number in base ten. -/
structure Numeral where
  sign : Option Bool
  whole : Digits Char.isDigit
  /-- A number does not begin with a zero before other digits. -/
  noLeadingZero : whole.first = '0' → whole.more = []
  fraction : Option (Digits Char.isDigit)
  exponent : Option Exponent

namespace Numeral

/-- The fraction, if there is one. -/
def fractionChars : Option (Digits Char.isDigit) → List Char
  | none => []
  | some d => '.' :: d.chars

/-- The exponent, if there is one. -/
def exponentChars : Option Exponent → List Char
  | none => []
  | some e => e.chars

/-- A number without its sign. -/
def magnitudeChars (n : Numeral) : List Char :=
  n.whole.chars ++ (fractionChars n.fraction ++ exponentChars n.exponent)

def chars (n : Numeral) : List Char := signChars n.sign ++ n.magnitudeChars

/-- The digits behind the point. -/
def places (n : Numeral) : List Char := (n.fraction.map Digits.digits).getD []

/-- The number that all digits make. -/
def significand (n : Numeral) : Nat := digitsValue (n.whole.digits ++ n.places)

/-- The power of ten to be multiplied with the significand. -/
def scale (n : Numeral) : Int := (n.exponent.map Exponent.value).getD 0 - n.places.length

/-- Whether a whole number fits into 64 bits; of the others the positive ones must not round to
infinity. -/
def Fits (n : Numeral) : Prop :=
  match n.fraction, n.exponent with
  | none, none =>
    if n.sign = some true then n.significand ≤ 0x8000000000000000
    else n.significand < 0x8000000000000000
  | _, _ => n.sign = some true ∨ (decimalReal false n.significand n.scale).isInfinite = false

end Numeral

/-- The bases besides ten. -/
inductive Base
  | sixteen
  | eight
  | two

namespace Base

/-- The letter that stands behind a zero for the base. -/
def mark : Base → Char
  | sixteen => 'x'
  | eight => 'o'
  | two => 'b'

def radix : Base → Nat
  | sixteen => 16
  | eight => 8
  | two => 2

def isDigit (base : Base) (c : Char) : Bool :=
  (hexValue? c).any fun value => decide (value < base.radix)

end Base

/-- A whole number in a base besides ten. -/
structure Based where
  base : Base
  digits : Digits base.isDigit

namespace Based

def chars (n : Based) : List Char := '0' :: n.base.mark :: n.digits.chars

def value (n : Based) : Nat :=
  n.digits.digits.foldl (fun value c => value * n.base.radix + (hexValue? c).getD 0) 0

def Fits (n : Based) : Prop := n.value < 0x8000000000000000

end Based

/-! ## Moments -/

/-- Two digits for a number below a hundred. -/
def pair (n : Nat) : List Char := [Nat.digitChar (n / 10), Nat.digitChar (n % 10)]

/-- A day of the calendar. -/
structure Date where
  year : Nat
  month : Nat
  day : Nat
  year_lt : year < 10000
  month_mem : 1 ≤ month ∧ month ≤ 12
  day_mem : 1 ≤ day ∧ day ≤ daysOfMonth year month

def Date.chars (date : Date) : List Char :=
  pair (date.year / 100) ++ pair (date.year % 100) ++
    '-' :: (pair date.month ++ '-' :: pair date.day)

/-- A time of day, with a leap second at most. -/
structure Time where
  hour : Nat
  minute : Nat
  second : Nat
  /-- The digits behind the point, if there is one. -/
  fraction : Option { digits : List Char // digits ≠ [] ∧ ∀ c ∈ digits, c.isDigit }
  hour_le : hour ≤ 23
  minute_le : minute ≤ 59
  second_le : second ≤ 60

/-- The fraction of a second, if there is one. -/
def Time.fractionChars :
    Option { digits : List Char // digits ≠ [] ∧ ∀ c ∈ digits, c.isDigit } → List Char
  | none => []
  | some digits => '.' :: digits.1

def Time.chars (time : Time) : List Char :=
  pair time.hour ++ ':' :: (pair time.minute ++ ':' :: (pair time.second ++
    fractionChars time.fraction))

/-- A difference to universal time. -/
structure Offset where
  west : Bool
  hour : Nat
  minute : Nat
  hour_le : hour ≤ 23
  minute_le : minute ≤ 59

def Offset.chars (offset : Offset) : List Char :=
  (if offset.west then '-' else '+') :: (pair offset.hour ++ ':' :: pair offset.minute)

/-- The zone of a moment. -/
inductive Zone
  /-- That of the reader. -/
  | anywhere
  /-- Universal time, with its letter in upper case or not. -/
  | universal (upper : Bool)
  | offset (difference : Offset)

def Zone.chars : Zone → List Char
  | anywhere => []
  | universal upper => [if upper then 'Z' else 'z']
  | offset difference => difference.chars

/-- A date, a time, or both. -/
inductive Moment
  | date (day : Date)
  | time (clock : Time)
  | both (day : Date) (between : { c : Char // joinsTime c }) (clock : Time) (zone : Zone)

def Moment.chars : Moment → List Char
  | date day => day.chars
  | time clock => clock.chars
  | both day between clock zone => day.chars ++ between.1 :: (clock.chars ++ zone.chars)

/-! ## Strings -/

/-- The letters that may stand after a backslash, each with its character. -/
def escapes : List (Char × Char) :=
  [('b', '\x08'), ('t', '\t'), ('n', '\n'), ('f', '\x0c'), ('r', '\r'), ('"', '"'), ('\\', '\\')]

/-- The ways to write a character after a backslash. -/
inductive IsEscape : List Char → Char → Prop
  | letter {letter c : Char} : (letter, c) ∈ escapes → IsEscape ['\\', letter] c
  | point {a b c d char : Char} : escaped? [a, b, c, d] = some char →
      IsEscape ['\\', 'u', a, b, c, d] char
  | longPoint {a b c d e f g h char : Char} : escaped? [a, b, c, d, e, f, g, h] = some char →
      IsEscape ['\\', 'U', a, b, c, d, e, f, g, h] char

/-- The ways to write a text between two quotes on one line. -/
inductive Spells : List Char → List Char → Prop
  | nil : Spells [] []
  | plain {c : Char} {w s : List Char} : isPlain c → c ≠ '"' → c ≠ '\\' → Spells w s →
      Spells (c :: w) (c :: s)
  | escape {e w s : List Char} {c : Char} : IsEscape e c → Spells w s → Spells (e ++ w) (c :: s)

/-- The quotes of a string: there are escapes between double ones only. -/
inductive Quote
  | double
  | single
deriving DecidableEq

def Quote.char : Quote → Char
  | double => '"'
  | single => '\''

/-- What may stand between three quotes and three more: `allowed` more of them at the beginning,
and no more than two in a row after that. -/
inductive IsLines (quote : Quote) : (allowed : Nat) → List Char → Prop
  | nil {allowed : Nat} : IsLines quote allowed []
  | quote {allowed : Nat} {w : List Char} : IsLines quote allowed w →
      IsLines quote (allowed + 1) (quote.char :: w)
  | plain {allowed : Nat} {c : Char} {w : List Char} : isPlain c → c ≠ quote.char →
      (quote = .double → c ≠ '\\') → IsLines quote 2 w → IsLines quote allowed (c :: w)
  | line {allowed : Nat} (b : Break) {w : List Char} : IsLines quote 2 w →
      IsLines quote allowed (b.chars ++ w)
  | escape {allowed : Nat} {e w : List Char} {c : Char} : quote = .double → IsEscape e c →
      IsLines quote 2 w → IsLines quote allowed (e ++ w)
  /-- A backslash before a line break takes it away with all blanks and breaks that follow. -/
  | joins {allowed : Nat} (blanks : Blanks) (b : Break) {w : List Char} : quote = .double →
      IsLines quote 2 w → IsLines quote allowed ('\\' :: (blanks.chars ++ (b.chars ++ w)))

/-- A text without escapes between two single quotes. -/
def IsLiteral (s : List Char) : Prop := ∀ c ∈ s, isPlain c ∧ c ≠ '\''

/-- A string in one of its four forms. -/
inductive IsText : List Char → Prop
  | basic {w s : List Char} : Spells w s → IsText ('"' :: (w ++ ['"']))
  | literal {s : List Char} : IsLiteral s → IsText ('\'' :: (s ++ ['\'']))
  | lines {w : List Char} : IsLines .double 2 w →
      IsText ('"' :: '"' :: '"' :: (w ++ ['"', '"', '"']))
  | literalLines {w : List Char} : IsLines .single 2 w →
      IsText ('\'' :: '\'' :: '\'' :: (w ++ ['\'', '\'', '\'']))

/-! ## Names -/

/-- Whether a name needs no quotes. -/
def IsBareName (name : String) : Prop := name.toList ≠ [] ∧ name.toList.all isBare

instance (name : String) : Decidable (IsBareName name) := inferInstanceAs (Decidable (_ ∧ _))

/-- The characters with which a part of a name begins. -/
def beginsPart (c : Char) : Bool := isBare c || c = '"' || c = '\''

/-- The ways to write one part of a name. -/
inductive IsPart : List Char → String → Prop
  | bare {name : String} : IsBareName name → IsPart name.toList name
  | basic {w s : List Char} : Spells w s → IsPart ('"' :: (w ++ ['"'])) (String.ofList s)
  | literal {s : List Char} : IsLiteral s → IsPart ('\'' :: (s ++ ['\''])) (String.ofList s)

/-- One part of a name with the blanks around it. -/
structure Part where
  before : Blanks
  written : List Char
  name : String
  isPart : IsPart written name
  after : Blanks

def Part.chars (part : Part) : List Char := part.before.chars ++ (part.written ++ part.after.chars)

/-- A name of one or more parts. -/
structure Name where
  first : Part
  more : List Part
  few : more.length + 1 < tooManyParts

namespace Name

def chars (name : Name) : List Char := joined '.' name.first.chars (name.more.map Part.chars)

/-- The names of the parts. -/
def parts (name : Name) : List String := name.first.name :: name.more.map Part.name

end Name

/-- Whether of two names neither begins with the other, so that both may be given values. -/
def Apart (a b : List String) : Prop := ¬ a <+: b ∧ ¬ b <+: a

/-! ## Values -/

/-- A value with what stands around it in an array. -/
structure Item where
  before : Gap
  value : List Char
  after : Gap

def Item.chars (item : Item) : List Char := item.before.chars ++ (item.value ++ item.after.chars)

/-- A value for a name. -/
structure Assignment where
  name : Name
  before : Blanks
  value : List Char
  after : Blanks

def Assignment.chars (a : Assignment) : List Char :=
  a.name.chars ++ '=' :: (a.before.chars ++ (a.value ++ a.after.chars))

/-- What follows the opening bracket of an array: items with a comma each, and then one more
without or nothing but a gap. -/
def arrayChars (items : List Item) (last : Gap ⊕ Item) : List Char :=
  items.flatMap (fun item => item.chars ++ [',']) ++ (last.elim Gap.chars Item.chars ++ [']'])

/-- A value, in which at most `room` arrays and tables are open at once. -/
inductive IsValue : (room : Nat) → List Char → Prop
  | text {room : Nat} {w : List Char} : IsText w → IsValue room w
  | yes {room : Nat} : IsValue room ['t', 'r', 'u', 'e']
  | no {room : Nat} : IsValue room ['f', 'a', 'l', 's', 'e']
  | numeral {room : Nat} (n : Numeral) : n.Fits → IsValue room n.chars
  | based {room : Nat} (n : Based) : n.Fits → IsValue room n.chars
  | infinite {room : Nat} (sign : Option Bool) : IsValue room (signChars sign ++ ['i', 'n', 'f'])
  | noNumber {room : Nat} (sign : Option Bool) : IsValue room (signChars sign ++ ['n', 'a', 'n'])
  | moment {room : Nat} (m : Moment) : IsValue room m.chars
  | array {room : Nat} {items : List Item} {last : Gap ⊕ Item} :
      (∀ item ∈ items, IsValue room item.value) →
      (∀ item, last = .inr item → IsValue room item.value) →
      IsValue (room + 1) ('[' :: arrayChars items last)
  | noEntries {room : Nat} (blanks : Blanks) :
      IsValue (room + 1) ('\x7b' :: (blanks.chars ++ ['\x7d']))
  | entries {room : Nat} {first : Assignment} {more : List Assignment} :
      (∀ a ∈ first :: more, IsValue room a.value) →
      ((first :: more).map fun a => a.name.parts).Pairwise Apart →
      IsValue (room + 1)
        ('\x7b' :: (joined ',' first.chars (more.map Assignment.chars) ++ ['\x7d']))

/-! ## Lines -/

/-- A line that gives a value to a name, with what may stand behind the value. -/
structure Expression (room : Nat) where
  assignment : Assignment
  isValue : IsValue room assignment.value
  comment : Option Comment
  ending : Break

namespace Expression

variable {room : Nat}

/-- The end of a line, with its comment. -/
def endingChars (e : Expression room) : List Char :=
  (e.comment.map Comment.chars).getD [] ++ e.ending.chars

def chars (e : Expression room) : List Char := e.assignment.chars ++ e.endingChars

/-- The parts of the name. -/
def names (e : Expression room) : List String := e.assignment.name.parts

/-- A line for a bare name, with single blanks around the equals sign. -/
def ofBare {name : String} (bare : IsBareName name) {w : List Char} (h : IsValue room w) :
    Expression room where
  assignment :=
    { name := ⟨⟨.none, name.toList, name, .bare bare, .space⟩, [], by decide⟩
      before := .space
      value := w
      after := .none }
  isValue := h
  comment := none
  ending := .feed

lemma chars_ofBare {name : String} (bare : IsBareName name) {w : List Char} (h : IsValue room w) :
    (ofBare bare h).chars = name.toList ++ ' ' :: '=' :: ' ' :: (w ++ ['\n']) := by
  simp [chars, ofBare, endingChars, Assignment.chars, Name.chars, Part.chars, joined, Break.chars,
    Blanks.none, Blanks.space]

end Expression

end CheckIn.Toml
