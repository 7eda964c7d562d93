/-
# Written strings are read back

A text is written in one of four forms.  Each form has its own reader, and each reader takes back
what is written in its form.  The two kinds of basic strings share one argument, character by
character; what differs is where a run of quotes may stand.  In the two forms of several lines up
to two quotes at the end of the text touch the three that close the string: the reader then sees
the closing quotes too early, and `surplus` gives back what it took.

The main statement is `text?_writeText`: every text is read back from the line on which it
stands, whichever form was chosen for it.
-/
import CheckIn.Toml.Text
import CheckIn.Toml.Writer
import Mathlib.Tactic

namespace CheckIn.Toml

/-! ## Characters -/

/-- What is no control character may stand in a string as it is, a line feed only in a string of
several lines. -/
lemma isPlain_of_not_isControl {c : Char} (h : isControl c = false) (hn : c ≠ '\n') :
    isPlain c := by
  simp only [isControl, Bool.or_eq_false_iff, Bool.and_eq_false_iff, decide_eq_false_iff_not,
    Nat.not_lt, ne_eq, not_not] at h
  simp only [isPlain, Bool.or_eq_true, Bool.and_eq_true, decide_eq_true_eq]
  obtain ⟨(hlow | htab) | hfeed, hdel⟩ := h
  · exact .inr ⟨hlow, hdel⟩
  · exact .inl htab
  · exact absurd hfeed hn

/-- The four digits that are written for a control character are its code point. -/
lemma escaped?_isControl {c : Char} (h : isControl c) :
    escaped? ['0', '0', upperHexDigit (c.toNat / 16), upperHexDigit (c.toNat % 16)] = some c := by
  have hsmall : ∀ n < 128, escaped? ['0', '0', upperHexDigit (n / 16), upperHexDigit (n % 16)] =
      some (Char.ofNat n) := by decide
  have hc : c.toNat < 128 := by
    simp only [isControl, Bool.or_eq_true, Bool.and_eq_true, decide_eq_true_eq] at h
    obtain ⟨⟨hlow, -⟩, -⟩ | rfl := h
    · omega
    · decide
  rw [hsmall _ hc, Char.ofNat_toNat]

/-- A letter that stands for a character after a backslash ends no line and begins no code
point. -/
lemma letter_of_unescape? {l c : Char} (h : unescape? l = some c) (w : List Char) :
    l ≠ 'u' ∧ l ≠ 'U' ∧ endsLine (l :: w) = false := by
  unfold unescape? at h
  split at h
  case h_8 => cases h
  all_goals exact ⟨by decide, by decide, rfl⟩

/-! ## Content, character by character -/

/-- A reader of the content of basic strings: it takes an escape for what it stands for and any
other character, where one may stand, as it is. -/
structure TakesContent (lines : Bool) (read : List Char → Option (List Char × List Char)) :
    Prop where
  letter : ∀ {l c : Char}, unescape? l = some c → ∀ {w s rest : List Char},
    read w = some (s, rest) → read ('\\' :: l :: w) = some (c :: s, rest)
  point : ∀ {a b c d char : Char}, escaped? [a, b, c, d] = some char → ∀ {w s rest : List Char},
    read w = some (s, rest) → read ('\\' :: 'u' :: a :: b :: c :: d :: w) = some (char :: s, rest)
  plain : ∀ {c : Char}, isPlain c ∨ (lines ∧ c = '\n') → c ≠ '"' → c ≠ '\\' →
    ∀ {w s rest : List Char}, read w = some (s, rest) → read (c :: w) = some (c :: s, rest)

lemma takesContent_basic : TakesContent false basic where
  letter {l c} hl {w s rest} hw := by
    obtain ⟨hu, hU, -⟩ := letter_of_unescape? hl w
    rw [basic.eq_6 l w (fun _ _ _ _ _ h => absurd h hu) (fun _ _ _ _ _ _ _ _ _ h => absurd h hU),
      hl, hw]
    rfl
  point {a b c d char} h {w s rest} hw := by
    show (escaped? [a, b, c, d]).bind (fun char =>
      (basic w).bind fun read => some (char :: read.1, read.2)) = _
    rw [h, Option.bind_some, hw, Option.bind_some]
  plain {c} h hq hb {w s rest} hw := by
    have hplain : isPlain c := h.resolve_right fun hn => Bool.false_ne_true hn.1
    rw [basic.eq_7 c w hq (fun _ _ _ _ _ h => absurd h hb)
      (fun _ _ _ _ _ _ _ _ _ h => absurd h hb) (fun h => absurd h hb) (fun _ _ h => absurd h hb),
      if_pos hplain, hw]
    rfl

/-- One character that neither closes nor escapes: it is passed over or taken. -/
lemma multiBasic_step {c : Char} {w : List Char} (hc : isPlain c ∨ c = '\n') (hb : c ≠ '\\')
    (hq : ∀ v, c = '"' → w ≠ '"' :: '"' :: v) (trimming : Bool) :
    multiBasic trimming (c :: w) =
      if trimming && (isBlank c || decide (c = '\n')) then multiBasic true w
      else (multiBasic false w).map fun read => (c :: read.1, read.2) := by
  have hreturn : c ≠ '\r' := by
    rintro rfl
    revert hc
    decide
  have hplain : (isPlain c || decide (c = '\n')) = true := by
    simpa only [Bool.or_eq_true, decide_eq_true_eq] using hc
  rw [multiBasic.eq_8 trimming c w hq (fun _ _ _ _ _ h => absurd h hb)
    (fun _ _ _ _ _ _ _ _ _ h => absurd h hb) (fun h => absurd h hb) (fun _ _ h => absurd h hb)
    (fun _ h => absurd h hreturn), if_pos hplain, Option.map_eq_bind]
  rfl

lemma multiBasic_plain {c : Char} (h : isPlain c ∨ c = '\n') (hb : c ≠ '\\') {w s rest : List Char}
    (hq : ∀ w', c = '"' → w ≠ '"' :: '"' :: w') (hw : multiBasic false w = some (s, rest)) :
    multiBasic false (c :: w) = some (c :: s, rest) := by
  rw [multiBasic_step h hb hq, Bool.false_and, if_neg Bool.false_ne_true, hw]
  rfl

section Escapes

variable {w s rest : List Char} (trimming : Bool)

/-- Behind a backslash, a letter that begins no code point takes away the rest of the line, or
stands for a character. -/
lemma multiBasic_backslash {l : Char} (hu : l ≠ 'u') (hU : l ≠ 'U') (w : List Char) :
    multiBasic trimming ('\\' :: l :: w) =
      if endsLine (l :: w) then multiBasic true (l :: w)
      else (unescape? l).bind fun char =>
        (multiBasic false w).bind fun read => some (char :: read.1, read.2) :=
  multiBasic.eq_6 trimming l w (fun _ _ _ _ _ h => absurd h hu)
    (fun _ _ _ _ _ _ _ _ _ h => absurd h hU)

lemma multiBasic_letter {l c : Char} (hl : unescape? l = some c)
    (hw : multiBasic false w = some (s, rest)) :
    multiBasic trimming ('\\' :: l :: w) = some (c :: s, rest) := by
  obtain ⟨hu, hU, hline⟩ := letter_of_unescape? hl w
  rw [multiBasic_backslash trimming hu hU, hline, if_neg Bool.false_ne_true, hl, Option.bind_some,
    hw, Option.bind_some]

lemma multiBasic_point {a b c d char : Char} (h : escaped? [a, b, c, d] = some char)
    (hw : multiBasic false w = some (s, rest)) :
    multiBasic trimming ('\\' :: 'u' :: a :: b :: c :: d :: w) = some (char :: s, rest) := by
  show (escaped? [a, b, c, d]).bind (fun char =>
    (multiBasic false w).bind fun read => some (char :: read.1, read.2)) = _
  rw [h, Option.bind_some, hw, Option.bind_some]

end Escapes

lemma takesContent_multiBasic : TakesContent true (multiBasic false) where
  letter hl _ _ _ hw := multiBasic_letter false hl hw
  point h _ _ _ hw := multiBasic_point false h hw
  plain h hq hb _ _ _ hw := multiBasic_plain (h.imp_right And.right) hb (fun _ h => absurd h hq) hw

/-- A written character is taken back, if it is no quote. -/
lemma TakesContent.escape {lines : Bool} {read : List Char → Option (List Char × List Char)}
    (h : TakesContent lines read) {c : Char} (hq : c ≠ '"') {w s rest : List Char}
    (hw : read w = some (s, rest)) : read (escape lines c ++ w) = some (c :: s, rest) := by
  unfold Toml.escape
  split
  · exact h.letter rfl hw
  · exact h.letter rfl hw
  · exact h.letter rfl hw
  · exact h.letter rfl hw
  · exact h.letter rfl hw
  · -- only strings of several lines hold a line feed as it is
    cases lines with
    | true => exact h.plain (.inr ⟨rfl, rfl⟩) hq (by decide) hw
    | false => exact h.letter rfl hw
  · next hb _ _ _ _ hn =>
    split
    · next hc => exact h.point (escaped?_isControl hc) hw
    · next hc =>
      exact h.plain (.inl (isPlain_of_not_isControl (Bool.eq_false_iff.2 hc) hn)) hq hb hw

/-! ## Basic strings -/

/-- What is written for a character begins with a backslash or with the character, unless that is
a carriage return. -/
lemma escape_eq_cons (lines : Bool) (c : Char) :
    ∃ d w, escape lines c = d :: w ∧ (d = '\\' ∨ (d = c ∧ c ≠ '\r')) := by
  unfold Toml.escape
  split
  case h_6 => split <;> exact ⟨_, _, rfl, by decide⟩
  case h_7 _ _ _ _ hr _ =>
    split
    · exact ⟨_, _, rfl, .inl rfl⟩
    · exact ⟨_, _, rfl, .inr ⟨rfl, hr⟩⟩
  all_goals exact ⟨_, _, rfl, .inl rfl⟩

/-- A content begins with a quote only if the text does and another quote is allowed. -/
lemma head_escapeAll {lines : Bool} {allowed run : Nat} {c : Char} {s X w : List Char}
    (h : escapeAll lines allowed run (c :: s) ++ X = '"' :: w) :
    c = '"' ∧ run < allowed ∧ escapeAll lines allowed (run + 1) s ++ X = w := by
  rw [escapeAll] at h
  split at h
  · next hc =>
    split at h
    · next hrun => exact ⟨hc, hrun, (List.cons.inj h).2⟩
    · exact absurd (List.cons.inj h).1 (by decide)
  · next hc =>
    obtain ⟨d, w', he, hd⟩ := escape_eq_cons lines c
    rw [he] at h
    obtain ⟨rfl, -⟩ := List.cons.inj h
    obtain hd | ⟨hd, -⟩ := hd
    · exact absurd hd (by decide)
    · exact absurd hd.symm hc

/-- The content of a text without line feeds begins with no line break. -/
lemma head_escapeAll_of_not_mem {s X : List Char} (hn : '\n' ∉ s) {c : Char} {w : List Char}
    (h : escapeAll true 2 0 s ++ '"' :: X = c :: w) : c ≠ '\n' ∧ c ≠ '\r' := by
  cases s with
  | nil =>
    obtain ⟨rfl, -⟩ := List.cons.inj h
    decide
  | cons d s =>
    rw [escapeAll] at h
    split at h
    · obtain ⟨rfl, -⟩ := List.cons.inj h
      decide
    · obtain ⟨e, w', he, hd⟩ := escape_eq_cons true d
      rw [he] at h
      obtain ⟨rfl, -⟩ := List.cons.inj h
      obtain rfl | ⟨rfl, hr⟩ := hd
      · decide
      · exact ⟨fun hc => hn (hc ▸ List.mem_cons_self), hr⟩

/-- A basic string of one line is taken back. -/
lemma basic_escapeAll (s : List Char) (run : Nat) (rest : List Char) :
    basic (escapeAll false 0 run s ++ '"' :: rest) = some (s, rest) := by
  induction s generalizing run with
  | nil => rfl
  | cons c s ih =>
    rw [escapeAll]
    split
    · next hc =>
      rw [if_neg run.not_lt_zero, hc]
      exact takesContent_basic.letter rfl (ih 0)
    · next hc =>
      rw [List.append_assoc]
      exact takesContent_basic.escape hc (ih 0)

/-- Up to two quotes that follow the closing ones are given back. -/
lemma surplus_replicate_append {q : Char} {k : Nat} (hk : k ≤ 2) {rest : List Char}
    (hrest : ∀ v, rest ≠ q :: v) :
    surplus q (List.replicate k q ++ rest) = (List.replicate k q, rest) := by
  cases rest with
  | nil => interval_cases k <;> simp [surplus]
  | cons c rest =>
    have hc : c ≠ q := fun h => hrest rest (h ▸ rfl)
    cases rest <;> interval_cases k <;> simp [surplus, hc]

/-- Of the quotes at the end of a line the first three close the string and up to two more are
given back to it. -/
lemma surplus_replicate {q : Char} (hq : '\n' ≠ q) {k : Nat} (hk : k ≤ 2) (rest : List Char) :
    surplus q (List.replicate k q ++ '\n' :: rest) = (List.replicate k q, '\n' :: rest) :=
  surplus_replicate_append hk fun _ h => hq (List.cons.inj h).1

/-- A quote at the beginning of a content is seen as one that closes the string only if nothing
but quotes is left, at most two of them. -/
lemma quotes_escapeAll {run : Nat} (hrun : run < 2) {s X w : List Char}
    (h : escapeAll true 2 (run + 1) s ++ X = '"' :: '"' :: w) :
    s = [] ∨ (s = ['"'] ∧ run = 0) := by
  cases s with
  | nil => exact .inl rfl
  | cons c s =>
    obtain ⟨rfl, hrun', h⟩ := head_escapeAll h
    cases s with
    | nil => exact .inr ⟨rfl, by omega⟩
    | cons d s =>
      have hle := (head_escapeAll h).2.1
      omega

/-- A basic string of several lines is taken back. -/
lemma multiBasic_escapeAll (s : List Char) (run : Nat) (rest : List Char) :
    multiBasic false (escapeAll true 2 run s ++ '"' :: '"' :: '"' :: '\n' :: rest) =
      some (s, '\n' :: rest) := by
  -- for any `run`, since a quote that stands as it is makes the run one longer
  induction s generalizing run with
  | nil => exact congrArg some (surplus_replicate (by decide) (Nat.zero_le 2) rest)
  | cons c s ih =>
    rw [escapeAll]
    split
    · next hc =>
      subst hc
      split
      · next hrun =>
        by_cases hs : ∃ w, escapeAll true 2 (run + 1) s ++ '"' :: '"' :: '"' :: '\n' :: rest =
            '"' :: '"' :: w
        · -- nothing but quotes is left, and the reader sees the first three as the closing ones
          obtain ⟨w, hw⟩ := hs
          obtain rfl | ⟨rfl, rfl⟩ := quotes_escapeAll hrun hw
          · exact congrArg some (surplus_replicate (by decide) one_le_two rest)
          · exact congrArg some (surplus_replicate (by decide) (Nat.le_refl 2) rest)
        · exact multiBasic_plain (.inl rfl) (by decide) (fun w _ hw => hs ⟨w, hw⟩) (ih (run + 1))
      · exact takesContent_multiBasic.letter rfl (ih 0)
    · next hc =>
      rw [List.append_assoc]
      exact takesContent_multiBasic.escape hc (ih 0)

/-! ## Literal strings -/

/-- A literal string of one line is taken back. -/
lemma literal_append {s : List Char} (hs : ∀ c ∈ s, isPlain c ∧ c ≠ '\'') (rest : List Char) :
    literal (s ++ '\'' :: rest) = some (s, rest) := by
  induction s with
  | nil => rfl
  | cons c s ih =>
    obtain ⟨hplain, hq⟩ := hs c List.mem_cons_self
    rw [List.cons_append, literal.eq_3 c _ hq, if_pos hplain,
      ih fun d hd => hs d (List.mem_cons_of_mem c hd)]
    rfl

lemma multiLiteral_plain {c : Char} (h : isPlain c ∨ c = '\n') {w s rest : List Char}
    (hq : ∀ w', c = '\'' → w ≠ '\'' :: '\'' :: w') (hw : multiLiteral w = some (s, rest)) :
    multiLiteral (c :: w) = some (c :: s, rest) := by
  have hreturn : c ≠ '\r' := by
    rintro rfl
    revert h
    decide
  have hplain : (isPlain c || decide (c = '\n')) = true := by
    simpa only [Bool.or_eq_true, decide_eq_true_eq] using h
  rw [multiLiteral.eq_4 c w hq (fun _ h => absurd h hreturn), if_pos hplain, hw]
  rfl

lemma le_longestRun (q : Char) (run : Nat) (s : List Char) : run ≤ longestRun q run s := by
  induction s generalizing run with
  | nil => exact Nat.le_refl run
  | cons c s ih =>
    rw [longestRun]
    split
    · exact Nat.le_of_succ_le (ih (run + 1))
    · exact Nat.le_max_left _ _

/-- A quote at the beginning of a text is seen as one that closes the string only if nothing but
quotes is left, at most two of them. -/
lemma quotes_append {run : Nat} {s X w : List Char} (hrun : longestRun '\'' (run + 1) s ≤ 2)
    (h : s ++ X = '\'' :: '\'' :: w) : s = [] ∨ s = ['\''] := by
  cases s with
  | nil => exact .inl rfl
  | cons c s =>
    obtain ⟨rfl, hw⟩ := List.cons.inj h
    cases s with
    | nil => exact .inr rfl
    | cons d s =>
      obtain rfl : d = '\'' := (List.cons.inj hw).1
      have := le_longestRun '\'' (run + 1 + 1 + 1) s
      simp only [longestRun, if_true] at hrun
      omega

/-- A literal string of several lines is taken back, if it has no three quotes in a row. -/
lemma multiLiteral_append {s : List Char} (hs : ∀ c ∈ s, isPlain c ∨ c = '\n') {run : Nat}
    (hrun : longestRun '\'' run s ≤ 2) (rest : List Char) :
    multiLiteral (s ++ '\'' :: '\'' :: '\'' :: '\n' :: rest) = some (s, '\n' :: rest) := by
  induction s generalizing run with
  | nil => exact congrArg some (surplus_replicate (by decide) (Nat.zero_le 2) rest)
  | cons c s ih =>
    have hs' : ∀ d ∈ s, isPlain d ∨ d = '\n' := fun d hd => hs d (List.mem_cons_of_mem c hd)
    rw [longestRun] at hrun
    rw [List.cons_append]
    split at hrun
    · next hc =>
      subst hc
      by_cases hquotes : ∃ w, s ++ '\'' :: '\'' :: '\'' :: '\n' :: rest = '\'' :: '\'' :: w
      · -- nothing but quotes is left, and the reader sees the first three as the closing ones
        obtain ⟨w, hw⟩ := hquotes
        obtain rfl | rfl := quotes_append hrun hw
        · exact congrArg some (surplus_replicate (by decide) one_le_two rest)
        · exact congrArg some (surplus_replicate (by decide) (Nat.le_refl 2) rest)
      · exact multiLiteral_plain (.inl rfl) (fun w _ hw => hquotes ⟨w, hw⟩) (ih hs' hrun)
    · next hc =>
      exact multiLiteral_plain (hs c List.mem_cons_self) (fun _ h => absurd h hc)
        (ih hs' (Nat.le_trans (Nat.le_max_right _ _) hrun))

/-- A text without line feeds that needs no escapes begins with no line break. -/
lemma head_append_of_not_mem {s X : List Char} (hs : ∀ c ∈ s, isPlain c ∨ c = '\n')
    (hn : '\n' ∉ s) {c : Char} {w : List Char} (h : s ++ '\'' :: X = c :: w) :
    c ≠ '\n' ∧ c ≠ '\r' := by
  cases s with
  | nil =>
    obtain ⟨rfl, -⟩ := List.cons.inj h
    decide
  | cons d s =>
    obtain ⟨rfl, -⟩ := List.cons.inj h
    refine ⟨fun hc => hn (hc ▸ List.mem_cons_self), ?_⟩
    rintro rfl
    exact absurd (hs '\r' List.mem_cons_self) (by decide)

/-! ## The four forms -/

/-- Whether a form can hold a text: literal strings have no escapes. -/
def Form.Holds : Form → List Char → Prop
  | basic, _ | multiBasic, _ => True
  | literal, s => ∀ c ∈ s, isPlain c ∧ c ≠ '\''
  | multiLiteral, s => (∀ c ∈ s, isPlain c ∨ c = '\n') ∧ longestRun '\'' 0 s ≤ 2

/-- The chosen form can hold the text. -/
lemma Form.holds_of (s : List Char) : (Form.of s).Holds s := by
  have hplain : s.any isControl = false → ∀ c ∈ s, isPlain c ∨ c = '\n' := fun h c hc => by
    by_cases hn : c = '\n'
    · exact .inr hn
    · exact .inl (isPlain_of_not_isControl (Bool.eq_false_iff.2 (List.any_eq_false.1 h c hc)) hn)
  unfold Form.of
  simp only
  split
  · trivial
  split
  · next h =>
    simp only [Bool.and_eq_true, Bool.not_eq_true', List.contains_eq_mem,
      decide_eq_false_iff_not] at h
    obtain ⟨⟨hcontrols, hquotes⟩, hlines⟩ := h
    intro c hc
    exact ⟨(hplain hcontrols c hc).resolve_right fun hn => hlines (hn ▸ hc),
      fun hq => hquotes (hq ▸ hc)⟩
  split
  · trivial
  split
  · next h =>
    simp only [Bool.and_eq_true, Bool.not_eq_true', decide_eq_true_eq] at h
    exact ⟨hplain h.1, h.2⟩
  split <;> trivial

/-- The line break with which a string of several lines begins is dropped again, and no other. -/
lemma dropNewline_opening {s w : List Char}
    (h : '\n' ∉ s → ∀ c w', w = c :: w' → c ≠ '\n' ∧ c ≠ '\r') :
    dropNewline ((if s.contains '\n' then ['\n'] else []) ++ w) = w := by
  split
  · rfl
  · next hn =>
    cases w with
    | nil => rfl
    | cons c w =>
      have hc := h (by simpa using hn) c w rfl
      have : newline? (c :: w) = none := newline?.eq_3 _ (fun _ h => hc.1 (List.cons.inj h).1)
        fun _ h => hc.2 (List.cons.inj h).1
      rw [List.nil_append, dropNewline, this]
      rfl

/-- What follows the opening quotes decides how a string goes on. -/
lemma text?_basic {w : List Char} (h : ∀ v, w ≠ '"' :: '"' :: v) :
    text? ('"' :: w) = asText (basic w) :=
  text?.eq_2 w h

lemma text?_literal {w : List Char} (h : ∀ v, w ≠ '\'' :: '\'' :: v) :
    text? ('\'' :: w) = asText (literal w) :=
  text?.eq_4 w h

lemma text?_multiBasic (w : List Char) :
    text? ('"' :: '"' :: '"' :: w) = asText (multiBasic false (dropNewline w)) :=
  rfl

lemma text?_multiLiteral (w : List Char) :
    text? ('\'' :: '\'' :: '\'' :: w) = asText (multiLiteral (dropNewline w)) :=
  rfl

/-- A text in a form that can hold it is read back from its line. -/
lemma Form.text?_write {form : Form} {s : List Char} (h : form.Holds s) (rest : List Char) :
    text? (form.write s ++ '\n' :: rest) = some (String.ofList s, '\n' :: rest) := by
  cases form with
  | basic =>
    -- two quotes come first only for the empty text, and then a line break follows, no third quote
    have hopen : ∀ w, escapeAll false 0 0 s ++ '"' :: '\n' :: rest ≠ '"' :: '"' :: w := by
      intro w hw
      cases s with
      | nil => exact absurd (List.cons.inj (List.cons.inj hw).2).1 (by decide)
      | cons c s => exact absurd (head_escapeAll hw).2.1 (Nat.not_lt_zero 0)
    simp only [write, List.cons_append, List.nil_append, List.append_assoc]
    rw [text?_basic hopen, basic_escapeAll]
    rfl
  | literal =>
    have hopen : ∀ w, s ++ '\'' :: '\n' :: rest ≠ '\'' :: '\'' :: w := by
      intro w hw
      cases s with
      | nil => exact absurd (List.cons.inj (List.cons.inj hw).2).1 (by decide)
      | cons c s => exact (h c List.mem_cons_self).2 (List.cons.inj hw).1
    simp only [write, List.cons_append, List.nil_append, List.append_assoc]
    rw [text?_literal hopen, literal_append h]
    rfl
  | multiBasic =>
    simp only [write, List.cons_append, List.nil_append, List.append_assoc]
    rw [text?_multiBasic, dropNewline_opening, multiBasic_escapeAll]
    · rfl
    · exact fun hn c w => head_escapeAll_of_not_mem hn
  | multiLiteral =>
    simp only [write, List.cons_append, List.nil_append, List.append_assoc]
    rw [text?_multiLiteral, dropNewline_opening, multiLiteral_append h.1 h.2]
    · rfl
    · exact fun hn c w => head_append_of_not_mem h.1 hn

/-- Every text is read back from the line on which it stands. -/
theorem text?_writeText (text : String) (rest : List Char) :
    text? (writeText text ++ '\n' :: rest) = some (text, '\n' :: rest) := by
  rw [writeText, Form.text?_write (Form.holds_of _), String.ofList_toList]

end CheckIn.Toml
