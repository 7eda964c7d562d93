/-
# Strings

What stands between the quotes of a string is resolved by itself: the reader takes it up to the
closing quote, whatever comes after, and either finds a text or refuses it.  A string that
spells a text is read as that text, however its characters are written, and every string is
passed over where nobody wants it, also one that spells no text.

The first half of a surrogate pair is the one place where an escape does not stand for itself,
so that the induction over a string has to look one escape ahead.
-/
import CheckIn.Proofs.Json.Reading

namespace CheckIn.Json
open Byte

namespace Text

/-! ## One step of resolving -/

/-- What is resolved after some bytes that are known. -/
def prepend (bytes : List UInt8) (more : Except Error (List UInt8 × List UInt8)) :
    Except Error (List UInt8 × List UInt8) := do
  let (content, left) ← more
  return (bytes ++ content, left)

lemma prepend_ok (bytes content left : List UInt8) :
    prepend bytes (.ok (content, left)) = .ok (bytes ++ content, left) := rfl

lemma prepend_nil (more : Except Error (List UInt8 × List UInt8)) : prepend [] more = more := by
  cases more <;> rfl

lemma prepend_prepend (a b : List UInt8) (more : Except Error (List UInt8 × List UInt8)) :
    prepend a (prepend b more) = prepend (a ++ b) more := by
  cases more with
  | error => rfl
  | ok p => rw [prepend_ok, prepend_ok, prepend_ok, List.append_assoc]

lemma resolve_quote (rest : List UInt8) : resolve (quote :: rest) = .ok ([], rest) := rfl

/-- A byte that stands for itself. -/
lemma resolve_plain {b : UInt8} (hlow : 0x20 ≤ b) (hq : b ≠ quote) (hb : b ≠ backslash)
    (rest : List UInt8) : resolve (b :: rest) = prepend [b] (resolve rest) := by
  rw [resolve.eq_7 b rest hq (fun _ _ _ _ _ h _ => hb h) (fun _ h _ => hb h) (fun h _ => hb h)
    fun _ _ h _ => hb h, if_neg (UInt8.not_lt.2 hlow)]
  rfl

lemma shortEscapes_cases {letter : UInt8} {c : Char} (h : (letter, c) ∈ shortEscapes) :
    (letter = quote ∧ c = '"') ∨ (letter = backslash ∧ c = '\\') ∨ (letter = slash ∧ c = '/') ∨
      (letter = lowerB ∧ c = '\x08') ∨ (letter = lowerF ∧ c = '\x0c') ∨
      (letter = lowerN ∧ c = '\n') ∨ (letter = lowerR ∧ c = '\r') ∨
      (letter = lowerT ∧ c = '\t') := by
  simpa [shortEscapes] using h

lemma ne_lowerU_of_mem_shortEscapes {letter : UInt8} {c : Char}
    (h : (letter, c) ∈ shortEscapes) : letter ≠ lowerU := by
  rcases shortEscapes_cases h with ⟨rfl, -⟩ | ⟨rfl, -⟩ | ⟨rfl, -⟩ | ⟨rfl, -⟩ | ⟨rfl, -⟩ | ⟨rfl, -⟩ |
    ⟨rfl, -⟩ | ⟨rfl, -⟩ <;> decide

/-- A letter after a backslash stands for its character. -/
lemma resolve_short {letter : UInt8} {c : Char} (h : (letter, c) ∈ shortEscapes)
    (rest : List UInt8) :
    resolve (backslash :: letter :: rest) =
      prepend (String.utf8EncodeChar c) (resolve rest) := by
  rcases shortEscapes_cases h with ⟨rfl, rfl⟩ | ⟨rfl, rfl⟩ | ⟨rfl, rfl⟩ | ⟨rfl, rfl⟩ | ⟨rfl, rfl⟩ |
    ⟨rfl, rfl⟩ | ⟨rfl, rfl⟩ | ⟨rfl, rfl⟩ <;> rfl

/-- What is resolved after the first half of a surrogate pair. -/
def afterLeading (leading : Nat) (bytes : List UInt8) :
    Except Error (List UInt8 × List UInt8) :=
  match bytes with
  | backslash :: lowerU :: e :: f :: g :: h :: rest =>
    match hexValue4? e f g h with
    | none => .error (.flawed .invalidEscape)
    | some second =>
      if isTrailingSurrogate second then
        prepend (pointBytes (pairValue leading second)) (resolve rest)
      else .error (.flawed .loneSurrogate)
  | rest => .error (unpaired rest)

/-- A unit of sixteen bits. -/
lemma resolve_unit {a b c d : UInt8} {unit : Nat} (h : hexValue4? a b c d = some unit)
    (rest : List UInt8) :
    resolve (backslash :: lowerU :: a :: b :: c :: d :: rest) =
      if isTrailingSurrogate unit then .error (.flawed .loneSurrogate)
      else if isLeadingSurrogate unit then afterLeading unit rest
      else prepend (pointBytes unit) (resolve rest) := by
  refine (resolve.eq_3 a b c d rest).trans ?_
  rw [h]
  rfl

/-! ## Between two quotes -/

/-- The bytes between two quotes are resolved to `content`, or refused. -/
def Resolves (w : List UInt8) (content : Option (List UInt8)) : Prop :=
  ∀ rest, (resolve (w ++ quote :: rest)).toOption = content.map (·, rest)

lemma toOption_prepend {bytes : List UInt8} {more : Except Error (List UInt8 × List UInt8)}
    {content : Option (List UInt8)} {rest : List UInt8}
    (h : more.toOption = content.map (·, rest)) :
    (prepend bytes more).toOption = (content.map (bytes ++ ·)).map (·, rest) := by
  rw [prepend, toOption_bind, h]
  cases content <;> rfl

lemma afterLeading_plain {b : UInt8} (h : b ≠ backslash) (leading : Nat) (rest : List UInt8) :
    (afterLeading leading (b :: rest)).toOption = none := by
  unfold afterLeading
  split
  · next he => exact absurd (List.cons.inj he).1 h
  · rfl

lemma afterLeading_short {letter : UInt8} (h : letter ≠ lowerU) (leading : Nat)
    (rest : List UInt8) : (afterLeading leading (backslash :: letter :: rest)).toOption = none := by
  unfold afterLeading
  split
  · next he => exact absurd (List.cons.inj (List.cons.inj he).2).1 h
  · rfl

lemma afterLeading_unit {a b c d : UInt8} {unit : Nat} (h : hexValue4? a b c d = some unit)
    (leading : Nat) (rest : List UInt8) :
    afterLeading leading (backslash :: lowerU :: a :: b :: c :: d :: rest) =
      if isTrailingSurrogate unit then
        prepend (pointBytes (pairValue leading unit)) (resolve rest)
      else .error (.flawed .loneSurrogate) := by
  show (match hexValue4? a b c d with
    | none => Except.error (Error.flawed .invalidEscape)
    | some second => _) = _
  rw [h]

end Text

open Text in
/-- What may stand between quotes is resolved up to the closing quote. -/
lemma Quotable.resolves {w : List UInt8} (hw : Quotable w) : ∃ content, Resolves w content := by
  -- the induction is on the length, because a surrogate pair is two escapes
  induction hn : w.length using Nat.strongRecOn generalizing w with
  | _ n ih =>
    subst hn
    cases hw with
    | nil => exact ⟨some [], fun rest => by rw [List.nil_append, resolve_quote]; rfl⟩
    | @plain b w hlow hq hb hw =>
      obtain ⟨content, h⟩ := ih w.length (by simp) hw rfl
      refine ⟨content.map ([b] ++ ·), fun rest => ?_⟩
      rw [List.cons_append, resolve_plain hlow hq hb]
      exact toOption_prepend (h rest)
    | @short letter c w hm hw =>
      obtain ⟨content, h⟩ := ih w.length (by simp only [List.length_cons]; omega) hw rfl
      refine ⟨content.map (String.utf8EncodeChar c ++ ·), fun rest => ?_⟩
      rw [List.cons_append, List.cons_append, resolve_short hm]
      exact toOption_prepend (h rest)
    | @unit a b c d unit w hu hw =>
      have hstep := fun rest => resolve_unit hu (w ++ quote :: rest)
      cases ht : isTrailingSurrogate unit with
      | true => exact ⟨none, fun rest => by simp [hstep, ht]⟩
      | false =>
        cases hl : isLeadingSurrogate unit with
        | false =>
          obtain ⟨content, h⟩ := ih w.length (by simp only [List.length_cons]; omega) hw rfl
          refine ⟨content.map (pointBytes unit ++ ·), fun rest => ?_⟩
          simp only [List.cons_append, hstep, ht, hl, Bool.false_eq_true, if_false]
          exact toOption_prepend (h rest)
        | true =>
          simp only [Resolves, List.cons_append, hstep, ht, hl, Bool.false_eq_true, if_false,
            if_true]
          cases hw with
          | nil => exact ⟨none, fun rest => afterLeading_plain (by decide) unit rest⟩
          | plain _ _ hb => exact ⟨none, fun rest => afterLeading_plain hb unit _⟩
          | short hm =>
            exact ⟨none, fun rest =>
              afterLeading_short (ne_lowerU_of_mem_shortEscapes hm) unit _⟩
          | @unit e f g h second w hs hw =>
            cases ht' : isTrailingSurrogate second with
            | false =>
              refine ⟨none, fun rest => ?_⟩
              simp only [List.cons_append, afterLeading_unit hs, ht', Bool.false_eq_true, if_false]
              rfl
            | true =>
              obtain ⟨content, h⟩ := ih w.length (by simp only [List.length_cons]; omega) hw rfl
              refine ⟨content.map (pointBytes (pairValue unit second) ++ ·), fun rest => ?_⟩
              simp only [List.cons_append, afterLeading_unit hs, ht', if_true]
              exact toOption_prepend (h rest)

namespace Text

/-! ## Reading -/

/-- What is read between two quotes. -/
def nameOf (w : List UInt8) : Option String := (read (w ++ [quote])).toOption.map Prod.fst

lemma Resolves.names {w : List UInt8} {content : Option (List UInt8)}
    (h : Resolves w content) : Names w (content.bind ofUtf8?) := by
  intro rest
  rw [read, toOption_bind, h rest]
  cases content with
  | none => rfl
  | some content =>
    simp only [Option.map_some, Option.bind_some]
    cases ofUtf8? content <;> rfl

end Text

lemma Names.nameOf_eq {w : List UInt8} {name : Option String} (h : Names w name) :
    Text.nameOf w = name := by
  rw [Text.nameOf, h [], Option.map_map]
  exact Option.map_id'

/-- A string is read for itself. -/
theorem Quotable.names {w : List UInt8} (h : Quotable w) : Names w (Text.nameOf w) := by
  obtain ⟨content, hr⟩ := h.resolves
  rw [hr.names.nameOf_eq]
  exact hr.names

/-- The bytes of a character are the character itself, or all of them are high. -/
lemma mem_utf8EncodeChar {c : Char} {b : UInt8} (h : b ∈ String.utf8EncodeChar c) :
    b.toNat = c.toNat ∨ 0x80 ≤ b.toNat := by
  simp only [String.utf8EncodeChar] at h
  split at h
  · next hv =>
    rw [List.mem_singleton] at h
    refine .inl ?_
    rw [h, UInt8.toNat_ofNat', Char.toNat]
    omega
  · refine .inr ?_
    split at h
    · simp only [List.mem_cons, List.not_mem_nil, or_false] at h
      rcases h with rfl | rfl <;> rw [UInt8.toNat_ofNat'] <;> omega
    · split at h <;> simp only [List.mem_cons, List.not_mem_nil, or_false] at h
      · rcases h with rfl | rfl | rfl <;> rw [UInt8.toNat_ofNat'] <;> omega
      · rcases h with rfl | rfl | rfl | rfl <;> rw [UInt8.toNat_ofNat'] <;> omega

/-- The bytes of a character that need not be escaped need no escape either. -/
lemma plain_utf8EncodeChar {c : Char} (hlow : 0x20 ≤ c.toNat) (hq : c ≠ '"') (hb : c ≠ '\\') :
    ∀ b ∈ String.utf8EncodeChar c, 0x20 ≤ b ∧ b ≠ quote ∧ b ≠ backslash := by
  intro b hm
  have hne : ∀ d : Char, c ≠ d → c.toNat ≠ d.toNat := fun d hd he =>
    hd (Char.ext (UInt32.toNat_inj.1 he))
  have h := mem_utf8EncodeChar hm
  have hq' := hne _ hq
  have hb' := hne _ hb
  refine ⟨UInt8.le_iff_toNat_le.2 ?_, ?_, ?_⟩
  · rcases h with h | h
    · rw [h]; exact hlow
    · exact Nat.le_trans (by decide) h
  · rintro rfl
    rcases h with h | h
    · exact hq' h.symm
    · exact absurd h (by decide)
  · rintro rfl
    rcases h with h | h
    · exact hb' h.symm
    · exact absurd h (by decide)

lemma resolve_utf8EncodeChar {c : Char} (hlow : 0x20 ≤ c.toNat) (hq : c ≠ '"') (hb : c ≠ '\\')
    (rest : List UInt8) :
    Text.resolve (String.utf8EncodeChar c ++ rest) =
      Text.prepend (String.utf8EncodeChar c) (Text.resolve rest) := by
  have hall := plain_utf8EncodeChar hlow hq hb
  revert hall
  induction String.utf8EncodeChar c with
  | nil => intro _; exact (Text.prepend_nil _).symm
  | cons b bytes ih =>
    intro hall
    have ⟨h₁, h₂, h₃⟩ := hall b List.mem_cons_self
    rw [List.cons_append, Text.resolve_plain h₁ h₂ h₃,
      ih fun b' hb' => hall b' (List.mem_cons_of_mem b hb'), Text.prepend_prepend]
    rfl

/-- What a spelling consists of may stand between quotes. -/
lemma Spells.quotable {w : List UInt8} {s : List Char} (h : Spells w s) : Quotable w := by
  induction h with
  | nil => exact .nil
  | plain hlow hq hb _ ih =>
    have hplain := plain_utf8EncodeChar hlow hq hb
    revert hplain
    induction String.utf8EncodeChar _ with
    | nil => exact fun _ => ih
    | cons b bytes ih' =>
      intro hplain
      have ⟨h₁, h₂, h₃⟩ := hplain b List.mem_cons_self
      exact .plain h₁ h₂ h₃ (ih' fun b' hb' => hplain b' (List.mem_cons_of_mem b hb'))
  | short hm _ ih => exact .short hm ih
  | unit hu _ _ ih => exact .unit hu ih
  | pair hl _ _ ht _ _ _ ih => exact .unit hl (.unit ht ih)

open Text in
/-- A spelling is resolved to the bytes of the text. -/
lemma Spells.resolve {w : List UInt8} {s : List Char} (h : Spells w s) (rest : List UInt8) :
    resolve (w ++ quote :: rest) = .ok (s.flatMap String.utf8EncodeChar, rest) := by
  induction h with
  | nil => exact resolve_quote rest
  | plain hlow hq hb _ ih =>
    rw [List.append_assoc, resolve_utf8EncodeChar hlow hq hb, ih]
    rfl
  | short hm _ ih =>
    rw [List.cons_append, List.cons_append, resolve_short hm, ih]
    rfl
  | @unit a b c d unit w s hu hs _ ih =>
    have ht : isTrailingSurrogate unit = false := by
      simp only [isTrailingSurrogate, decide_eq_false_iff_not]; omega
    have hl : isLeadingSurrogate unit = false := by
      simp only [isLeadingSurrogate, decide_eq_false_iff_not]; omega
    simp only [List.cons_append, resolve_unit hu, ht, hl, Bool.false_eq_true, if_false, ih]
    rfl
  | @pair a b c d e f g h leading trailing w s hl hlo hhi ht htlo hthi _ ih =>
    have h₁ : isTrailingSurrogate leading = false := by
      simp only [isTrailingSurrogate, decide_eq_false_iff_not]; omega
    have h₂ : isLeadingSurrogate leading = true := by
      simp only [isLeadingSurrogate, decide_eq_true_eq]; omega
    have h₃ : isTrailingSurrogate trailing = true := by
      simp only [isTrailingSurrogate, decide_eq_true_eq]; omega
    simp only [List.cons_append, resolve_unit hl, h₁, h₂, Bool.false_eq_true, if_false, if_true,
      afterLeading_unit ht, h₃, ih]
    rfl

/-- A spelling is read as its text. -/
theorem Spells.names {w : List UInt8} {s : String} (h : Spells w s.toList) :
    Names w (some s) := by
  have : Text.Resolves w (some (utf8 s)) := fun rest => by rw [h.resolve rest]; rfl
  have := this.names
  rwa [Option.bind_some, ofUtf8?_utf8] at this

namespace Text

/-! ## Passing over -/

lemma skip_plain {b : UInt8} (hlow : 0x20 ≤ b) (hq : b ≠ quote) (hb : b ≠ backslash)
    (rest : List UInt8) : skip (b :: rest) = skip rest := by
  rw [skip.eq_7 b rest hq (fun _ _ _ _ _ h _ => hb h) (fun _ h _ => hb h) (fun h _ => hb h)
    fun _ _ h _ => hb h, if_neg (UInt8.not_lt.2 hlow)]

lemma skip_short {letter : UInt8} {c : Char} (h : (letter, c) ∈ shortEscapes)
    (rest : List UInt8) : skip (backslash :: letter :: rest) = skip rest := by
  rcases shortEscapes_cases h with ⟨rfl, -⟩ | ⟨rfl, -⟩ | ⟨rfl, -⟩ | ⟨rfl, -⟩ | ⟨rfl, -⟩ |
    ⟨rfl, -⟩ | ⟨rfl, -⟩ | ⟨rfl, -⟩ <;> rfl

lemma skip_unit {a b c d : UInt8} {unit : Nat} (h : hexValue4? a b c d = some unit)
    (rest : List UInt8) :
    skip (backslash :: lowerU :: a :: b :: c :: d :: rest) = skip rest := by
  refine (skip.eq_3 a b c d rest).trans ?_
  rw [h]

end Text

/-- Every string is passed over, also one that spells no text. -/
theorem Quotable.skip {w : List UInt8} (h : Quotable w) (rest : List UInt8) :
    Text.skip (w ++ quote :: rest) = .ok rest := by
  induction h with
  | nil => rfl
  | plain hlow hq hb _ ih => rw [List.cons_append, Text.skip_plain hlow hq hb, ih]
  | short hm _ ih => rw [List.cons_append, List.cons_append, Text.skip_short hm, ih]
  | unit hu _ ih =>
    simp only [List.cons_append]
    rw [Text.skip_unit hu, ih]

end CheckIn.Json
