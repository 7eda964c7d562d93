/-
# Numbers

A number is read up to its last digit, whatever comes after it, and passed over likewise.  What
may follow a value is no digit, point or mark of an exponent, and so every part of a number ends
where the grammar says: the scanners are tied to the grammar by what they leave.

A number may be too large to be kept; nothing is too large to be passed over.
-/
import CheckIn.Proofs.Json.Reading

namespace CheckIn.Json
open Byte

/-- The number that digits write. -/
def Digits.value (d : Digits) : Nat := d.bytes.foldl (fun value b => value * 10 + digitValue b) 0

namespace Number

/-! ## Digits -/

/-- The bytes do not begin with a digit. -/
def NoDigit (bytes : List UInt8) : Prop := ∀ b rest, bytes = b :: rest → isDigit b = false

lemma NoDigit.of_ends {rest : List UInt8} (h : Ends rest) : NoDigit rest := by
  rintro b more rfl
  exact h.not_number.1

lemma noDigit_exponent (exponent : Option Exponent) {rest : List UInt8} (h : Ends rest) :
    NoDigit (Numeral.exponentBytes exponent ++ rest) := by
  cases exponent with
  | none => exact .of_ends h
  | some e =>
    rintro b more he
    obtain ⟨rfl, -⟩ := List.cons.inj he
    cases e.upper <;> rfl

lemma noDigit_fraction (fraction : Option Digits) (exponent : Option Exponent)
    {rest : List UInt8} (h : Ends rest) :
    NoDigit (Numeral.fractionBytes fraction ++ (Numeral.exponentBytes exponent ++ rest)) := by
  cases fraction with
  | none => exact noDigit_exponent exponent h
  | some d =>
    rintro b more he
    obtain ⟨rfl, -⟩ := List.cons.inj he
    rfl

lemma takeWhile_digits {digits rest : List UInt8} (hd : ∀ b ∈ digits, isDigit b)
    (hr : NoDigit rest) : (digits ++ rest).takeWhile isDigit = digits := by
  rw [List.takeWhile_append_of_pos hd]
  cases rest with
  | nil => simp
  | cons b more => rw [List.takeWhile_cons_of_neg (by simp [hr b more rfl]), List.append_nil]

lemma dropWhile_digits {digits rest : List UInt8} (hd : ∀ b ∈ digits, isDigit b)
    (hr : NoDigit rest) : (digits ++ rest).dropWhile isDigit = rest := by
  rw [List.dropWhile_append_of_pos hd]
  cases rest with
  | nil => rfl
  | cons b more => exact List.dropWhile_cons_of_neg (by simp [hr b more rfl])

/-- Which of some digits fit does not depend on what follows them. -/
lemma fittingDigits_append {digits : List UInt8} (hd : ∀ b ∈ digits, isDigit b) :
    ∀ significand, ∃ longer count left, (∀ b ∈ left, isDigit b) ∧ ∀ rest, NoDigit rest →
      fittingDigits significand (digits ++ rest) = (longer, count, left ++ rest) := by
  induction digits with
  | nil =>
    intro significand
    refine ⟨significand, 0, [], by simp, fun rest hr => ?_⟩
    cases rest with
    | nil => rfl
    | cons b more =>
      rw [List.nil_append, fittingDigits, if_neg (by simp [hr b more rfl])]
  | cons b digits ih =>
    intro significand
    by_cases hb : isDigit b ∧ significand * 10 + digitValue b < 0x10000000000000000
    · obtain ⟨longer, count, left, hl, h⟩ :=
        ih (fun c hc => hd c (List.mem_cons_of_mem b hc)) (significand * 10 + digitValue b)
      refine ⟨longer, count + 1, left, hl, fun rest hr => ?_⟩
      rw [List.cons_append, fittingDigits, if_pos hb, h rest hr]
    · refine ⟨significand, 0, b :: digits, hd, fun rest _ => ?_⟩
      rw [List.cons_append, fittingDigits, if_neg hb]

lemma le_foldl (digits : List UInt8) : ∀ start,
    start ≤ digits.foldl (fun value b => value * 10 + digitValue b) start := by
  induction digits with
  | nil => exact fun start => Nat.le_refl start
  | cons b digits ih =>
    intro start
    have := ih (start * 10 + digitValue b)
    rw [List.foldl_cons]
    omega

/-- Digits whose value fits are all kept. -/
lemma fittingDigits_of_lt {digits rest : List UInt8} (hd : ∀ b ∈ digits, isDigit b)
    (hr : NoDigit rest) : ∀ start,
    digits.foldl (fun value b => value * 10 + digitValue b) start < 0x10000000000000000 →
    fittingDigits start (digits ++ rest) =
      (digits.foldl (fun value b => value * 10 + digitValue b) start, digits.length, rest) := by
  induction digits with
  | nil =>
    intro start _
    cases rest with
    | nil => rfl
    | cons b more => rw [List.nil_append, fittingDigits, if_neg (by simp [hr b more rfl])]; rfl
  | cons b digits ih =>
    intro start hfit
    rw [List.foldl_cons] at hfit ⊢
    have hb : isDigit b := hd b List.mem_cons_self
    have hle := le_foldl digits (start * 10 + digitValue b)
    rw [List.cons_append, fittingDigits, if_pos ⟨hb, by omega⟩,
      ih (fun c hc => hd c (List.mem_cons_of_mem b hc)) _ hfit]
    rfl

/-! ## Reading -/

lemma toOption_real (negative : Bool) (significand : Nat) (exponent : Int)
    (rest : List UInt8) :
    (do
      let number ← realOf negative significand exponent
      return (number, rest) : Except Error (Number × List UInt8)).toOption =
      (realOf negative significand exponent).toOption.map (·, rest) := by
  rw [toOption_bind]
  cases (realOf negative significand exponent).toOption <;> rfl

lemma exponentSign_digits (sign : Option Bool) (d : Digits) (rest : List UInt8) :
    exponentSign (Exponent.signBytes sign ++ d.bytes ++ rest) =
      (sign.getD false, d.bytes ++ rest) := by
  match sign with
  | some false => rfl
  | some true => rfl
  | none =>
    obtain ⟨b, more, hb, hd⟩ := d.cons
    rw [Exponent.signBytes, List.nil_append, hb, List.cons_append]
    unfold exponentSign
    split
    · next he => rw [(List.cons.inj he).1] at hd; exact absurd hd (by decide)
    · next he => rw [(List.cons.inj he).1] at hd; exact absurd hd (by decide)
    · rfl

/-- The sign and the digits of an exponent. -/
lemma settled_afterMark (negative : Bool) (significand : Nat) (exponent : Int)
    (sign : Option Bool) (d : Digits) :
    Settled fun rest =>
      afterMark negative significand exponent (Exponent.signBytes sign ++ d.bytes ++ rest) := by
  let shift : Nat := d.bytes.foldl (fun value b => value * 10 + digitValue b) 0
  refine ⟨(realOf negative significand
    (if sign.getD false then exponent - shift else exponent + shift)).toOption, fun rest hr => ?_⟩
  have hn := NoDigit.of_ends hr
  obtain ⟨b, more, hb, hd⟩ := d.cons
  have hdigits := d.digit
  rw [← toOption_real]
  dsimp only [shift]
  simp only [afterMark, exponentSign_digits, leadingValue, takeWhile_digits hdigits hn,
    dropWhile_digits hdigits hn]
  rw [hb, List.cons_append]
  simp only [hd]
  rfl

/-- An exponent, or none. -/
lemma settled_afterFraction (negative : Bool) (significand : Nat) (shift : Int)
    (exponent : Option Exponent) :
    Settled fun rest =>
      afterFraction negative significand shift (Numeral.exponentBytes exponent ++ rest) := by
  cases exponent with
  | none =>
    refine ⟨(realOf negative significand shift).toOption, fun rest hr => ?_⟩
    rw [← toOption_real]
    simp only [Numeral.exponentBytes, List.nil_append]
    unfold afterFraction
    split
    · exact absurd rfl hr.not_number.2.2.1
    · exact absurd rfl hr.not_number.2.2.2
    · rfl
  | some e =>
    obtain ⟨result, h⟩ := settled_afterMark negative significand shift e.sign e.digits
    refine ⟨result, fun rest hr => ?_⟩
    rw [← h rest hr, Numeral.exponentBytes, Exponent.bytes]
    cases e.upper <;> rfl

/-- The digits after the point, and an exponent. -/
lemma settled_afterPoint (negative : Bool) (significand : Nat) (shift : Int) (d : Digits)
    (exponent : Option Exponent) :
    Settled fun rest => afterPoint negative significand shift
      (d.bytes ++ (Numeral.exponentBytes exponent ++ rest)) := by
  obtain ⟨longer, count, left, hl, hf⟩ := fittingDigits_append d.digit significand
  obtain ⟨result, h⟩ := settled_afterFraction negative longer (shift - count) exponent
  refine ⟨result, fun rest hr => ?_⟩
  have hn := noDigit_exponent exponent hr
  simp only [afterPoint, hf _ hn, takeWhile_digits d.digit hn, dropWhile_digits hl hn,
    if_neg d.ne_nil]
  exact h rest hr

/-- What follows the digits before the point. -/
lemma settled_afterWhole (negative : Bool) (significand dropped : Nat)
    (fraction : Option Digits) (exponent : Option Exponent) :
    Settled fun rest => afterWhole negative significand dropped
      (Numeral.fractionBytes fraction ++ (Numeral.exponentBytes exponent ++ rest)) := by
  cases fraction with
  | some d =>
    obtain ⟨result, h⟩ := settled_afterPoint negative significand dropped d exponent
    exact ⟨result, fun rest hr => h rest hr⟩
  | none =>
    cases exponent with
    | some e =>
      obtain ⟨result, h⟩ := settled_afterMark negative significand dropped e.sign e.digits
      refine ⟨result, fun rest hr => ?_⟩
      rw [← h rest hr, Numeral.fractionBytes, Numeral.exponentBytes, Exponent.bytes]
      cases e.upper <;> rfl
    | none =>
      refine ⟨if dropped = 0 then some (wholeOf negative significand)
        else (realOf negative significand dropped).toOption, fun rest hr => ?_⟩
      simp only [Numeral.fractionBytes, Numeral.exponentBytes, List.nil_append]
      unfold afterWhole
      split
      · exact absurd rfl hr.not_number.2.1
      · exact absurd rfl hr.not_number.2.2.1
      · exact absurd rfl hr.not_number.2.2.2
      · split
        · rfl
        · exact toOption_real negative significand dropped rest

/-- The first digit decides whether a number is a zero before the point. -/
lemma read_zero {rest : List UInt8} (h : NoDigit rest) (negative : Bool) :
    read negative (zero :: rest) = afterWhole negative 0 0 rest := by
  cases rest with
  | nil => rfl
  | cons b more =>
    show (if isDigit b then _ else _) = _
    rw [if_neg (by simp [h b more rfl])]

lemma read_digit {b : UInt8} (hz : b ≠ zero) (hb : isDigit b) (negative : Bool)
    (rest : List UInt8) :
    read negative (b :: rest) =
      afterWhole negative (fittingDigits 0 (b :: rest)).1
        ((fittingDigits 0 (b :: rest)).2.2.takeWhile isDigit).length
        ((fittingDigits 0 (b :: rest)).2.2.dropWhile isDigit) := by
  unfold read
  split
  · next h => cases h
  · next h => exact absurd (List.cons.inj h).1 hz
  · next h =>
    obtain ⟨rfl, -⟩ := List.cons.inj h
    rw [if_pos hb]

/-- A number from its first digit on. -/
theorem settled_read (n : Numeral) (negative : Bool) :
    Settled fun rest => read negative (n.magnitudeBytes ++ rest) := by
  obtain ⟨b, more, hw, hb⟩ := n.whole.cons
  by_cases hz : b = zero
  · obtain rfl := n.noLeadingZero more (by rw [hw, hz])
    obtain ⟨result, h⟩ := settled_afterWhole negative 0 0 n.fraction n.exponent
    refine ⟨result, fun rest hr => ?_⟩
    simp only [Numeral.magnitudeBytes, hw, hz, List.append_assoc, List.cons_append,
      List.nil_append]
    rw [read_zero (noDigit_fraction n.fraction n.exponent hr)]
    exact h rest hr
  · obtain ⟨longer, count, left, hl, hf⟩ := fittingDigits_append n.whole.digit 0
    obtain ⟨result, h⟩ := settled_afterWhole negative longer left.length n.fraction n.exponent
    refine ⟨result, fun rest hr => ?_⟩
    have hn := noDigit_fraction n.fraction n.exponent hr
    have hfit := hf _ hn
    simp only [Numeral.magnitudeBytes, List.append_assoc]
    rw [hw, List.cons_append] at hfit ⊢
    rw [read_digit hz hb, hfit, takeWhile_digits hl hn, dropWhile_digits hl hn]
    exact h rest hr

lemma afterWhole_end (negative : Bool) (significand : Nat) {rest : List UInt8}
    (h : Ends rest) :
    afterWhole negative significand 0 rest = .ok (wholeOf negative significand, rest) := by
  unfold afterWhole
  split
  · exact absurd rfl h.not_number.2.1
  · exact absurd rfl h.not_number.2.2.1
  · exact absurd rfl h.not_number.2.2.2
  · rfl

/-- A number without point and exponent is read as its digits, if they fit. -/
lemma read_whole (n : Numeral) (hfraction : n.fraction = none) (hexponent : n.exponent = none)
    (hfit : n.whole.value < 0x10000000000000000) (negative : Bool) {rest : List UInt8}
    (h : Ends rest) :
    read negative (n.magnitudeBytes ++ rest) = .ok (wholeOf negative n.whole.value, rest) := by
  have hnd := NoDigit.of_ends h
  have hbytes : n.magnitudeBytes = n.whole.bytes := by
    rw [Numeral.magnitudeBytes, hfraction, hexponent]
    exact List.append_nil _
  obtain ⟨b, more, hw, hb⟩ := n.whole.cons
  by_cases hz : b = zero
  · obtain rfl := n.noLeadingZero more (by rw [hw, hz])
    have hvalue : n.whole.value = 0 := by
      rw [Digits.value, hw, hz]
      rfl
    rw [hbytes, hvalue, hw, hz, List.cons_append, List.nil_append, read_zero hnd,
      afterWhole_end negative 0 h]
  · have hread : fittingDigits 0 (n.whole.bytes ++ rest) = _ :=
      fittingDigits_of_lt n.whole.digit hnd 0 hfit
    have hempty : ∀ b ∈ ([] : List UInt8), isDigit b := by simp
    have htake : rest.takeWhile isDigit = [] := takeWhile_digits hempty hnd
    have hdrop : rest.dropWhile isDigit = rest := dropWhile_digits hempty hnd
    rw [hw, List.cons_append] at hread
    rw [hbytes, hw, List.cons_append, read_digit hz hb, hread, htake, hdrop, ← hw]
    exact afterWhole_end negative n.whole.value h

/-! ## Passing over -/

lemma skipDigits_digits (d : Digits) {rest : List UInt8} (h : NoDigit rest) :
    skipDigits (d.bytes ++ rest) = .ok rest := by
  obtain ⟨b, more, hw, hb⟩ := d.cons
  have hd : ∀ c ∈ more, isDigit c := fun c hc =>
    d.digit c (by rw [hw]; exact List.mem_cons_of_mem b hc)
  rw [hw, List.cons_append, skipDigits, if_pos hb, dropWhile_digits hd h]

lemma skipExponent_exponent (exponent : Option Exponent) {rest : List UInt8} (h : Ends rest) :
    skipExponent (Numeral.exponentBytes exponent ++ rest) = .ok rest := by
  cases exponent with
  | none =>
    rw [Numeral.exponentBytes, List.nil_append]
    unfold skipExponent
    split
    · exact absurd rfl h.not_number.2.2.1
    · exact absurd rfl h.not_number.2.2.2
    · rfl
  | some e =>
    have hs : skipDigits (exponentSign (Exponent.signBytes e.sign ++ e.digits.bytes ++ rest)).2 =
        .ok rest := by
      rw [exponentSign_digits, skipDigits_digits e.digits (.of_ends h)]
    rw [← hs, Numeral.exponentBytes, Exponent.bytes]
    cases e.upper <;> rfl

lemma skipFraction_fraction (fraction : Option Digits) (exponent : Option Exponent)
    {rest : List UInt8} (h : Ends rest) :
    skipFraction (Numeral.fractionBytes fraction ++ (Numeral.exponentBytes exponent ++ rest)) =
      .ok rest := by
  cases fraction with
  | some d =>
    show (skipDigits (d.bytes ++ (Numeral.exponentBytes exponent ++ rest)) >>= skipExponent) = _
    rw [skipDigits_digits d (noDigit_exponent exponent h)]
    exact skipExponent_exponent exponent h
  | none =>
    have hs := skipExponent_exponent exponent h
    rw [Numeral.fractionBytes, List.nil_append, ← hs]
    unfold skipFraction
    split
    · next he =>
      cases exponent with
      | none =>
        rw [Numeral.exponentBytes, List.nil_append] at he
        subst he
        exact absurd rfl h.not_number.2.1
      | some e =>
        have := (List.cons.inj he).1
        cases hu : e.upper <;> rw [hu] at this <;> exact absurd this (by decide)
    · rfl

lemma skip_zero {rest : List UInt8} (h : NoDigit rest) :
    skip (zero :: rest) = skipFraction rest := by
  cases rest with
  | nil => rfl
  | cons b more =>
    show (if isDigit b then _ else _) = _
    rw [if_neg (by simp [h b more rfl])]

lemma skip_digit {b : UInt8} (hz : b ≠ zero) (rest : List UInt8) :
    skip (b :: rest) = skipDigits (b :: rest) >>= skipFraction := by
  unfold skip
  split
  · next h => exact absurd (List.cons.inj h).1 hz
  · rfl

/-- Every number is passed over, whatever its size. -/
theorem skip_magnitude (n : Numeral) {rest : List UInt8} (h : Ends rest) :
    skip (n.magnitudeBytes ++ rest) = .ok rest := by
  obtain ⟨b, more, hw, hb⟩ := n.whole.cons
  have hn := noDigit_fraction n.fraction n.exponent h
  by_cases hz : b = zero
  · obtain rfl := n.noLeadingZero more (by rw [hw, hz])
    simp only [Numeral.magnitudeBytes, hw, hz, List.append_assoc, List.cons_append,
      List.nil_append]
    rw [skip_zero hn]
    exact skipFraction_fraction n.fraction n.exponent h
  · have hd := skipDigits_digits n.whole hn
    simp only [Numeral.magnitudeBytes, List.append_assoc]
    rw [hw, List.cons_append] at hd ⊢
    rw [skip_digit hz, hd]
    exact skipFraction_fraction n.fraction n.exponent h

end Number

end CheckIn.Json
