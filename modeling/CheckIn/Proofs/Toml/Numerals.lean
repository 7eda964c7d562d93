/-
# The numbers and moments of the grammar are read

A number is read digit by digit up to what cannot continue it.  All that begins with a digit or a
sign is first tried as a moment; a number is none because the character after its first digits is
neither the minus sign of a date nor the colon of a time.
-/
import CheckIn.Proofs.Toml.Grammar

namespace CheckIn.Toml

/-! ## Digits -/

/-- The next character is no digit, and no underscore before one. -/
def Stops (isDigit : Char → Bool) (rest : List Char) : Prop :=
  ∀ c w, rest = c :: w → isDigit c = false ∧ c ≠ '_'

/-- Digits of no base go on with what may follow a value. -/
lemma Ends.stops {isDigit : Char → Bool} {rest : List Char} (h : Ends rest)
    (hd : followers.all fun d => !isDigit d := by decide) :
    Stops isDigit rest := by
  rintro c w rfl
  refine ⟨h.eq_false hd, ?_⟩
  rintro rfl
  exact h.ne (by decide) (by decide) w rfl

namespace Digits

variable {isDigit : Char → Bool} {rest : List Char}

lemma moreDigits_moreChars (hu : isDigit '_' = false) {more : List (Bool × Char)}
    (hmore : ∀ d ∈ more, isDigit d.2) (hrest : Stops isDigit rest) :
    moreDigits isDigit (moreChars more ++ rest) = some (more.map Prod.snd, rest) := by
  induction more with
  | nil =>
    cases rest with
    | nil => rfl
    | cons c w =>
      obtain ⟨hc, hne⟩ := hrest c w rfl
      rw [moreChars, List.flatMap_nil, List.nil_append,
        moreDigits.eq_3 _ _ _ (fun _ _ h => absurd h hne), if_neg (by simp [hc]), if_neg hne]
      rfl
  | cons d more ih =>
    obtain ⟨grouped, c⟩ := d
    have hc : isDigit c := hmore (grouped, c) List.mem_cons_self
    have hne : c ≠ '_' := by
      rintro rfl
      exact absurd hc (by simp [hu])
    have htail := ih fun d hd => hmore d (List.mem_cons_of_mem _ hd)
    rw [moreChars] at htail ⊢
    cases grouped with
    | true =>
      rw [List.flatMap_cons, if_pos rfl, List.append_assoc, List.cons_append,
        List.singleton_append, moreDigits.eq_2, if_pos hc, htail]
      rfl
    | false =>
      rw [List.flatMap_cons, if_neg Bool.false_ne_true, List.append_assoc, List.singleton_append,
        moreDigits.eq_3 _ _ _ (fun _ _ h => absurd h hne), if_pos hc, htail]
      rfl

/-- Digits are read up to what cannot continue them. -/
lemma digits?_append (hu : isDigit '_' = false) (d : Digits isDigit)
    (hrest : Stops isDigit rest) :
    digits? isDigit (d.chars ++ rest) = some (d.digits, rest) := by
  rw [chars, List.cons_append, digits?, if_pos d.digit_first,
    moreDigits_moreChars hu d.digit_more hrest]
  rfl

/-- After the first digits without underscores there is an underscore, or what follows all of
them. -/
lemma dropWhile_chars (d : Digits isDigit) (hrest : Stops isDigit rest) {c : Char}
    {w : List Char} (h : (d.chars ++ rest).dropWhile isDigit = c :: w) :
    c = '_' ∨ rest = c :: w := by
  obtain ⟨first, more, hfirst, hmore⟩ := d
  rw [chars, List.cons_append, List.dropWhile_cons_of_pos hfirst] at h
  induction more with
  | nil =>
    cases rest with
    | nil => cases h
    | cons e v =>
      rw [moreChars, List.flatMap_nil, List.nil_append,
        List.dropWhile_cons_of_neg (by simp [(hrest e v rfl).1])] at h
      exact .inr h
  | cons d more ih =>
    obtain ⟨grouped, e⟩ := d
    have he : isDigit e := hmore (grouped, e) List.mem_cons_self
    rw [moreChars, List.flatMap_cons, List.append_assoc] at h
    cases grouped with
    | true =>
      rw [if_pos rfl, List.cons_append] at h
      by_cases hu : isDigit '_'
      · -- an underscore that were a digit would be passed over with the others
        rw [List.dropWhile_cons_of_pos hu, List.singleton_append,
          List.dropWhile_cons_of_pos he] at h
        exact ih (fun d hd => hmore d (List.mem_cons_of_mem _ hd)) h
      · rw [List.dropWhile_cons_of_neg hu] at h
        exact .inl (List.cons.inj h).1.symm
    | false =>
      rw [if_neg Bool.false_ne_true, List.singleton_append, List.dropWhile_cons_of_pos he] at h
      exact ih (fun d hd => hmore d (List.mem_cons_of_mem _ hd)) h

end Digits

/-! ## The four shapes of a number in base ten -/

section Decimal

variable {negative : Bool} {cs digits places w rest : List Char} {mark : Char} {exponent : Int}

lemma decimal?_of_whole (hwhole : wholeDigits? cs = some (digits, rest))
    (hrest : ∀ c w, rest = c :: w → c ≠ '.' ∧ c ≠ 'e' ∧ c ≠ 'E') :
    decimal? negative cs =
      (integerOf? negative (digitsValue digits)).map fun value => (value, rest) := by
  unfold decimal?
  rw [hwhole]
  simp only [Option.bind_eq_bind, Option.bind_some]
  split
  · next w => exact absurd rfl (hrest '.' w rfl).1
  · next w => exact absurd rfl (hrest 'e' w rfl).2.1
  · next w => exact absurd rfl (hrest 'E' w rfl).2.2
  · exact Option.map_eq_bind.symm

lemma decimal?_of_exponent (hwhole : wholeDigits? cs = some (digits, mark :: w))
    (hmark : mark = 'e' ∨ mark = 'E') (hexponent : exponent? w = some (exponent, rest)) :
    decimal? negative cs =
      (realOf? negative (digitsValue digits) exponent).map fun value => (value, rest) := by
  unfold decimal?
  rw [hwhole, Option.map_eq_bind]
  obtain rfl | rfl := hmark <;>
  · simp only [Option.bind_eq_bind, Option.bind_some, hexponent, Nat.cast_zero, sub_zero]
    rfl

lemma decimal?_of_fraction (hwhole : wholeDigits? cs = some (digits, '.' :: w))
    (hplaces : digits? Char.isDigit w = some (places, rest))
    (hrest : ∀ c w, rest = c :: w → c ≠ '.' ∧ c ≠ 'e' ∧ c ≠ 'E') :
    decimal? negative cs =
      (realOf? negative (digitsValue (digits ++ places)) (-places.length)).map
        fun value => (value, rest) := by
  unfold decimal?
  rw [hwhole, Option.map_eq_bind]
  simp only [Option.bind_eq_bind, Option.bind_some, hplaces]
  split
  · next w => exact absurd rfl (hrest 'e' w rfl).2.1
  · next w => exact absurd rfl (hrest 'E' w rfl).2.2
  · rfl

lemma decimal?_of_fraction_exponent {v : List Char}
    (hwhole : wholeDigits? cs = some (digits, '.' :: w))
    (hplaces : digits? Char.isDigit w = some (places, mark :: v))
    (hmark : mark = 'e' ∨ mark = 'E') (hexponent : exponent? v = some (exponent, rest)) :
    decimal? negative cs =
      (realOf? negative (digitsValue (digits ++ places)) (exponent - places.length)).map
        fun value => (value, rest) := by
  unfold decimal?
  rw [hwhole, Option.map_eq_bind]
  obtain rfl | rfl := hmark <;>
  · simp only [Option.bind_eq_bind, Option.bind_some, hplaces, hexponent]
    rfl

end Decimal

/-! ## Numbers in base ten -/

lemma sign_append (s : Option Bool) {w : List Char} (h : ∀ c v, w = c :: v → c ≠ '+' ∧ c ≠ '-') :
    sign (signChars s ++ w) = (s == some true, w) := by
  match s with
  | none =>
    exact sign.eq_3 w (fun v hv => (h _ v hv).1 rfl) fun v hv => (h _ v hv).2 rfl
  | some false => rfl
  | some true => rfl

lemma Digits.append_ne_sign (d : Digits Char.isDigit) (rest : List Char) (c : Char)
    (v : List Char) (h : d.chars ++ rest = c :: v) : c ≠ '+' ∧ c ≠ '-' := by
  have hc : c.isDigit := by
    rw [← (List.cons.inj h).1]
    exact d.digit_first
  constructor <;>
  · rintro rfl
    exact absurd hc (by decide)

lemma Exponent.exponent?_append (e : Exponent) {rest : List Char}
    (hrest : Stops Char.isDigit rest) :
    exponent? (signChars e.sign ++ e.digits.chars ++ rest) = some (e.value, rest) := by
  rw [List.append_assoc, exponent?, sign_append e.sign (e.digits.append_ne_sign rest)]
  simp only [e.digits.digits?_append rfl hrest, Option.bind_eq_bind, Option.bind_some, beq_iff_eq]
  rfl

namespace Numeral

variable {rest : List Char}

/-- What follows the digits before the point. -/
def tailChars (n : Numeral) : List Char := fractionChars n.fraction ++ exponentChars n.exponent

lemma exponentChars_head (e : Option Exponent) {c : Char} {w : List Char}
    (h : exponentChars e ++ rest = c :: w) : (c = 'e' ∨ c = 'E') ∨ rest = c :: w := by
  match e with
  | none => exact .inr h
  | some ⟨true, _, _⟩ => exact .inl (.inr (List.cons.inj h).1.symm)
  | some ⟨false, _, _⟩ => exact .inl (.inl (List.cons.inj h).1.symm)

/-- Behind the first digits stands one of three marks, or what follows the number. -/
lemma tailChars_head (n : Numeral) {c : Char} {w : List Char} (h : n.tailChars ++ rest = c :: w) :
    (c = '.' ∨ c = 'e' ∨ c = 'E') ∨ rest = c :: w := by
  rw [tailChars, List.append_assoc] at h
  match hfraction : n.fraction with
  | none =>
    rw [hfraction] at h
    exact (exponentChars_head _ h).imp_left .inr
  | some _ =>
    rw [hfraction] at h
    exact .inl (.inl (List.cons.inj h).1.symm)

lemma stops_exponentChars (e : Option Exponent) (hrest : Stops Char.isDigit rest) :
    Stops Char.isDigit (exponentChars e ++ rest) := by
  intro c w h
  obtain (rfl | rfl) | h := exponentChars_head e h
  · decide
  · decide
  · exact hrest c w h

lemma stops_tailChars (n : Numeral) (hrest : Stops Char.isDigit rest) :
    Stops Char.isDigit (n.tailChars ++ rest) := by
  intro c w h
  obtain (rfl | rfl | rfl) | h := n.tailChars_head h
  · decide
  · decide
  · decide
  · exact hrest c w h

lemma wholeDigits?_append (n : Numeral) (hrest : Stops Char.isDigit rest) :
    wholeDigits? (n.whole.chars ++ rest) = some (n.whole.digits, rest) := by
  by_cases hzero : n.whole.first = '0'
  · rw [Digits.chars, Digits.digits, hzero, n.noLeadingZero hzero]
    rfl
  · rw [Digits.chars, List.cons_append, wholeDigits?.eq_2 _ fun _ h => hzero (List.cons.inj h).1]
    exact n.whole.digits?_append rfl hrest

/-- What a number is, if it fits. -/
def value? (n : Numeral) : Option Value :=
  match n.fraction, n.exponent with
  | none, none => integerOf? (n.sign == some true) n.significand
  | _, _ => realOf? (n.sign == some true) n.significand n.scale

lemma exists_value? (n : Numeral) (h : n.Fits) : ∃ value, n.value? = some value := by
  have hreal : n.sign = some true ∨ (decimalReal false n.significand n.scale).isInfinite = false →
      ∃ value, realOf? (n.sign == some true) n.significand n.scale = some value := by
    intro h
    rw [realOf?]
    by_cases hsign : n.sign = some true
    · rw [hsign]
      exact ⟨_, rfl⟩
    · have hfalse : (n.sign == some true) = false := beq_false_of_ne hsign
      simp only [hfalse, h.resolve_left hsign]
      exact ⟨_, rfl⟩
  rw [Fits] at h
  rw [value?]
  match hfraction : n.fraction, hexponent : n.exponent with
  | none, none =>
    rw [hfraction, hexponent] at h
    simp only at h ⊢
    rw [integerOf?]
    by_cases hsign : n.sign = some true
    · rw [if_pos hsign] at h
      simp only [hsign, beq_self_eq_true, if_true]
      rw [if_pos (by omega)]
      exact ⟨_, rfl⟩
    · rw [if_neg hsign] at h
      have hfalse : (n.sign == some true) = false := beq_false_of_ne hsign
      simp only [hfalse, Bool.false_eq_true, if_false]
      rw [if_pos (by omega)]
      exact ⟨_, rfl⟩
  | none, some e =>
    rw [hfraction, hexponent] at h
    exact hreal h
  | some d, none =>
    rw [hfraction, hexponent] at h
    exact hreal h
  | some d, some e =>
    rw [hfraction, hexponent] at h
    exact hreal h

/-- A number without its sign is read as what it is. -/
lemma decimal?_append (n : Numeral) (hrest : Ends rest) :
    decimal? (n.sign == some true) (n.magnitudeChars ++ rest) =
      n.value?.map fun value => (value, rest) := by
  have hwhole : wholeDigits? (n.magnitudeChars ++ rest) =
      some (n.whole.digits, n.tailChars ++ rest) := by
    rw [magnitudeChars, List.append_assoc]
    exact n.wholeDigits?_append (n.stops_tailChars hrest.stops)
  have hend : ∀ c w, rest = c :: w → c ≠ '.' ∧ c ≠ 'e' ∧ c ≠ 'E' := by
    rintro c w rfl
    refine ⟨?_, ?_, ?_⟩ <;>
    · rintro rfl
      exact hrest.ne (by decide) (by decide) w rfl
  have hexponent : ∀ e : Exponent,
      exponent? (signChars e.sign ++ e.digits.chars ++ rest) = some (e.value, rest) :=
    fun e => e.exponent?_append hrest.stops
  rw [value?, significand, scale, places]
  rw [tailChars] at hwhole
  match hfraction : n.fraction, hexp : n.exponent with
  | none, none =>
    rw [hfraction, hexp, fractionChars, exponentChars, List.nil_append, List.nil_append] at hwhole
    rw [decimal?_of_whole hwhole hend]
    simp
  | none, some e =>
    rw [hfraction, hexp] at hwhole
    rw [decimal?_of_exponent hwhole (by cases e.upper <;> simp) (hexponent e)]
    simp
  | some d, none =>
    rw [hfraction, hexp, fractionChars, exponentChars, List.append_nil, List.cons_append] at hwhole
    rw [decimal?_of_fraction hwhole (d.digits?_append rfl hrest.stops) hend]
    simp
  | some d, some e =>
    rw [hfraction, hexp, fractionChars, List.cons_append, List.cons_append, List.append_assoc]
      at hwhole
    rw [decimal?_of_fraction_exponent hwhole (d.digits?_append rfl
      (stops_exponentChars (some e) hrest.stops)) (by cases e.upper <;> simp) (hexponent e)]
    simp

end Numeral

/-! ## Numbers of all kinds -/

section Numbers

variable {c : Char} {w rest : List Char}

/-- A date begins with four digits and a minus sign, and a time with two and a colon. -/
lemma afterMoment?_eq_none {cs : List Char}
    (hdate : ∀ a b c d w, cs = a :: b :: c :: d :: '-' :: w → ¬ [a, b, c, d].all Char.isDigit)
    (htime : ∀ a b w, cs = a :: b :: ':' :: w → ¬ (a.isDigit ∧ b.isDigit)) :
    afterMoment? cs = none := by
  have hnodate : afterDate? cs = none := by
    unfold afterDate?
    split
    · exact if_neg (hdate _ _ _ _ _ rfl)
    · rfl
  have hnotime : afterTime? cs = none := by
    unfold afterTime?
    split
    · next h₁ h₂ m₁ m₂ s₁ s₂ rest =>
      have hhour : twoDigits? h₁ h₂ 0 23 = none :=
        if_neg fun hall => htime _ _ _ rfl ⟨hall.1, hall.2.1⟩
      rw [hhour]
      rfl
    · rfl
  rw [afterMoment?, hnodate]
  exact hnotime

/-- What has neither of these marks after its first digits is no moment. -/
lemma afterMoment?_of_dropWhile {cs : List Char}
    (h : ∀ c w, cs.dropWhile Char.isDigit = c :: w → c ≠ '-' ∧ c ≠ ':') :
    afterMoment? cs = none := by
  refine afterMoment?_eq_none (fun a b c d w hcs hall => ?_) fun a b w hcs hall => ?_
  · simp only [List.all_cons, List.all_nil, Bool.and_true, Bool.and_eq_true] at hall
    refine (h '-' w ?_).1 rfl
    rw [hcs, List.dropWhile_cons_of_pos hall.1, List.dropWhile_cons_of_pos hall.2.1,
      List.dropWhile_cons_of_pos hall.2.2.1, List.dropWhile_cons_of_pos hall.2.2.2,
      List.dropWhile_cons_of_neg (by decide)]
  · refine (h ':' w ?_).2 rfl
    rw [hcs, List.dropWhile_cons_of_pos hall.1, List.dropWhile_cons_of_pos hall.2,
      List.dropWhile_cons_of_neg (by decide)]

/-- No moment begins with what is no digit. -/
lemma afterMoment?_of_not_isDigit (hc : c.isDigit = false) (w : List Char) :
    afterMoment? (c :: w) = none := by
  have hne : ∀ {d : Char} {v : List Char}, d.isDigit → c :: w ≠ d :: v := by
    rintro d v hd h
    rw [← (List.cons.inj h).1, hc] at hd
    cases hd
  refine afterMoment?_eq_none (fun a b c d v hcs hall => ?_) fun a b v hcs hall => hne hall.1 hcs
  simp only [List.all_cons, Bool.and_eq_true] at hall
  exact hne hall.1 hcs

/-- Without a mark of another base, what begins with no moment is a number in base ten or none. -/
lemma number?_of_not_based (hmoment : afterMoment? w = none)
    (hbase : ∀ d v, w = '0' :: d :: v → d ≠ 'x' ∧ d ≠ 'o' ∧ d ≠ 'b') :
    number? w = match special? (sign w).1 (sign w).2 with
      | some read => some read
      | none => decimal? (sign w).1 (sign w).2 := by
  unfold number?
  rw [hmoment]
  simp only
  split
  · next v => exact absurd rfl (hbase 'x' v rfl).1
  · next v => exact absurd rfl (hbase 'o' v rfl).2.1
  · next v => exact absurd rfl (hbase 'b' v rfl).2.2
  · rfl

/-- What stands behind a sign decides whether a number is in base ten. -/
lemma number?_signed (s : Bool) (w : List Char) :
    number? (signChars (some s) ++ w) = match special? s w with
      | some read => some read
      | none => decimal? s w := by
  cases s <;>
  · rw [signChars, List.singleton_append,
      number?_of_not_based (afterMoment?_of_not_isDigit (by decide) w)
        fun _ _ h => absurd (List.cons.inj h).1 (by decide)]
    rfl

/-- A number in base ten is read as what it is. -/
lemma Numeral.number?_append (n : Numeral) (hrest : Ends rest) :
    number? (n.chars ++ rest) = n.value?.map fun value => (value, rest) := by
  have htail := n.stops_tailChars hrest.stops
  have hmagnitude : n.magnitudeChars ++ rest =
      n.whole.chars ++ (n.tailChars ++ rest) := List.append_assoc _ _ _
  have hspecial : ∀ negative, special? negative (n.magnitudeChars ++ rest) = none := by
    intro negative
    have hdigit := n.whole.digit_first
    rw [hmagnitude, Digits.chars]
    refine special?.eq_3 _ _ (fun v h => ?_) fun v h => ?_ <;>
    · rw [(List.cons.inj h).1] at hdigit
      exact absurd hdigit (by decide)
  have hread := n.decimal?_append hrest
  rw [chars, List.append_assoc]
  match hsign : n.sign with
  | some s =>
    rw [hsign] at hread
    rw [number?_signed, hspecial]
    cases s <;> exact hread
  | none =>
    rw [hsign] at hread
    have hends : ∀ d v, n.tailChars ++ rest = d :: v →
        (d ≠ '-' ∧ d ≠ ':') ∧ d ≠ 'x' ∧ d ≠ 'o' ∧ d ≠ 'b' := by
      intro d v h
      obtain (rfl | rfl | rfl) | rfl := n.tailChars_head h
      · decide
      · decide
      · decide
      · refine ⟨⟨?_, ?_⟩, ?_, ?_, ?_⟩ <;>
        · rintro rfl
          exact hrest.ne (by decide) (by decide) v rfl
    have hmoment : afterMoment? (n.magnitudeChars ++ rest) = none := by
      refine afterMoment?_of_dropWhile fun d v hd => ?_
      rw [hmagnitude] at hd
      obtain rfl | hd := n.whole.dropWhile_chars htail hd
      · decide
      · exact (hends d v hd).1
    have hbase : ∀ d v, n.magnitudeChars ++ rest = '0' :: d :: v → d ≠ 'x' ∧ d ≠ 'o' ∧ d ≠ 'b' := by
      intro d v hd
      rw [hmagnitude, Digits.chars] at hd
      obtain ⟨hzero, hd⟩ := List.cons.inj hd
      rw [n.noLeadingZero hzero] at hd
      exact (hends d v hd).2
    have hunsigned := sign_append none (n.whole.append_ne_sign (n.tailChars ++ rest))
    rw [← hmagnitude] at hunsigned
    rw [signChars, List.nil_append] at hunsigned ⊢
    rw [number?_of_not_based hmoment hbase, hunsigned, hspecial]
    exact hread

/-- The mark behind the zero decides on the base. -/
lemma Base.number?_mark (base : Base) (w : List Char) :
    number? ('0' :: base.mark :: w) = inBase base.radix w := by
  have hmark : base.mark.isDigit = false ∧ base.mark ≠ '-' ∧ base.mark ≠ ':' := by
    cases base <;> decide
  have hmoment : afterMoment? ('0' :: base.mark :: w) = none := by
    refine afterMoment?_of_dropWhile fun d v hd => ?_
    rw [List.dropWhile_cons_of_pos (by decide),
      List.dropWhile_cons_of_neg (by simp [hmark.1])] at hd
    rw [← (List.cons.inj hd).1]
    exact hmark.2
  unfold number?
  rw [hmoment]
  cases base <;> rfl

/-- What stands behind the mark of a base: digits, and then their value. -/
lemma Base.inBase_eq (base : Base) (w : List Char) :
    inBase base.radix w = (digits? base.isDigit w).bind fun read =>
      (integerOf? false
        (read.1.foldl (fun value c => value * base.radix + (hexValue? c).getD 0) 0)).bind
        fun value => some (value, read.2) :=
  rfl

/-- A number in another base is read as what it is. -/
lemma Based.number?_append (n : Based) (hrest : Ends rest) :
    number? (n.chars ++ rest) = (integerOf? false n.value).map fun value => (value, rest) := by
  have hunderscore : n.base.isDigit '_' = false := by cases n.base <;> decide
  have hstops : Stops n.base.isDigit rest := hrest.stops (by cases n.base <;> decide)
  have hdigits := n.digits.digits?_append hunderscore hstops
  rw [chars, List.cons_append, List.cons_append, Base.number?_mark, Base.inBase_eq,
    hdigits, Option.bind_some]
  exact Option.map_eq_bind.symm

lemma Based.exists_value (n : Based) (h : n.Fits) :
    ∃ value, integerOf? false n.value = some value := by
  rw [Fits] at h
  rw [integerOf?]
  simp only [Bool.false_eq_true, if_false]
  rw [if_pos (by omega)]
  exact ⟨_, rfl⟩

end Numbers

/-! ## Moments -/

section Moments

variable {c : Char} {w rest : List Char}

/-- Two digits are read as the number for which they stand. -/
lemma digits_pair {n : Nat} (hn : n < 100) :
    (Nat.digitChar (n / 10)).isDigit ∧ (Nat.digitChar (n % 10)).isDigit ∧
      digitsValue [Nat.digitChar (n / 10), Nat.digitChar (n % 10)] = n := by
  have hall : ∀ n < 100, (Nat.digitChar (n / 10)).isDigit ∧ (Nat.digitChar (n % 10)).isDigit ∧
      digitsValue [Nat.digitChar (n / 10), Nat.digitChar (n % 10)] = n := by decide
  exact hall n hn

lemma twoDigits?_pair {n lowest highest : Nat} (hn : n < 100) (hlow : lowest ≤ n)
    (hhigh : n ≤ highest) :
    twoDigits? (Nat.digitChar (n / 10)) (Nat.digitChar (n % 10)) lowest highest = some n := by
  obtain ⟨h₁, h₂, hvalue⟩ := digits_pair hn
  simp only [twoDigits?, hvalue]
  exact if_pos ⟨h₁, h₂, hlow, hhigh⟩

lemma digitsValue_four (a b c d : Char) :
    digitsValue [a, b, c, d] = digitsValue [a, b] * 100 + digitsValue [c, d] := by
  simp only [digitsValue, Nat.ofDigitChars, List.foldl]
  omega

lemma daysOfMonth_le (year month : Nat) : daysOfMonth year month ≤ 31 := by
  unfold daysOfMonth
  split_ifs <;> omega

/-- A date is passed. -/
lemma Date.afterDate?_append (date : Date) (rest : List Char) :
    afterDate? (date.chars ++ rest) = some rest := by
  obtain ⟨year, month, day, hyear, hmonth, hday⟩ := date
  have hdays := daysOfMonth_le year month
  obtain ⟨h₁, h₂, hhigh⟩ := digits_pair (n := year / 100) (by omega)
  obtain ⟨h₃, h₄, hlow⟩ := digits_pair (n := year % 100) (by omega)
  have hvalue : digitsValue [Nat.digitChar (year / 100 / 10), Nat.digitChar (year / 100 % 10),
      Nat.digitChar (year % 100 / 10), Nat.digitChar (year % 100 % 10)] = year := by
    rw [digitsValue_four, hhigh, hlow]
    omega
  simp only [chars, pair, List.cons_append, List.nil_append, afterDate?]
  rw [if_pos (by simp only [List.all_cons, h₁, h₂, h₃, h₄]; rfl),
    twoDigits?_pair (by omega) hmonth.1 hmonth.2]
  simp only [hvalue, Option.bind_eq_bind, Option.bind_some]
  rw [twoDigits?_pair (by omega) hday.1 hday.2]
  rfl

/-- What may follow a time: no point, and no digit. -/
def EndsTime (rest : List Char) : Prop := ∀ c w, rest = c :: w → c.isDigit = false ∧ c ≠ '.'

lemma endsTime_cons (h : c.isDigit = false ∧ c ≠ '.') (w : List Char) : EndsTime (c :: w) := by
  rintro d v hd
  rwa [← (List.cons.inj hd).1]

lemma Ends.endsTime (h : Ends rest) : EndsTime rest := by
  rintro c w rfl
  refine ⟨h.eq_false (by decide), ?_⟩
  rintro rfl
  exact h.ne (by decide) (by decide) w rfl

lemma Time.afterSecondFraction_append
    (fraction : Option { digits : List Char // digits ≠ [] ∧ ∀ c ∈ digits, c.isDigit })
    (hrest : EndsTime rest) : afterSecondFraction (fractionChars fraction ++ rest) = rest := by
  match fraction with
  | none => exact afterSecondFraction.eq_2 rest fun w h => (hrest '.' w h).2 rfl
  | some ⟨[], hne, _⟩ => exact absurd rfl hne
  | some ⟨c :: digits, _, hdigit⟩ =>
    have hc : c.isDigit := hdigit c List.mem_cons_self
    have hend : rest.dropWhile Char.isDigit = rest := by
      cases rest with
      | nil => rfl
      | cons d w => exact List.dropWhile_cons_of_neg (by simp [(hrest d w rfl).1])
    rw [fractionChars, List.cons_append, afterSecondFraction, List.cons_append,
      List.takeWhile_cons_of_pos hc, List.isEmpty_cons, if_neg Bool.false_ne_true,
      ← List.cons_append, List.dropWhile_append_of_pos hdigit, hend]

/-- A time is passed. -/
lemma Time.afterTime?_append (time : Time) (hrest : EndsTime rest) :
    afterTime? (time.chars ++ rest) = some rest := by
  obtain ⟨hour, minute, second, fraction, hhour, hminute, hsecond⟩ := time
  simp only [chars, pair, List.cons_append, List.nil_append, afterTime?]
  rw [twoDigits?_pair (by omega) (Nat.zero_le _) hhour,
    twoDigits?_pair (by omega) (Nat.zero_le _) hminute,
    twoDigits?_pair (by omega) (Nat.zero_le _) hsecond, afterSecondFraction_append _ hrest]
  rfl

/-- A zone is passed. -/
lemma Zone.afterZone_append (zone : Zone) (hrest : Ends rest) :
    afterZone (zone.chars ++ rest) = rest := by
  cases zone with
  | anywhere =>
    exact afterZone.eq_5 rest (hrest.ne (by decide) (by decide)) (hrest.ne (by decide) (by decide))
      (hrest.ne (by decide) (by decide)) (hrest.ne (by decide) (by decide))
  | universal upper => cases upper <;> rfl
  | offset difference =>
    obtain ⟨west, hour, minute, hhour, hminute⟩ := difference
    have hoffset : afterOffset? (pair hour ++ ':' :: pair minute ++ rest) = some rest := by
      simp only [pair, List.cons_append, List.nil_append, afterOffset?]
      rw [twoDigits?_pair (by omega) (Nat.zero_le _) hhour,
        twoDigits?_pair (by omega) (Nat.zero_le _) hminute]
      rfl
    cases west
    · show (afterOffset? (pair hour ++ ':' :: pair minute ++ rest)).getD _ = rest
      rw [hoffset]
      rfl
    · show (afterOffset? (pair hour ++ ':' :: pair minute ++ rest)).getD _ = rest
      rw [hoffset]
      rfl

lemma Zone.endsTime (zone : Zone) (hrest : Ends rest) : EndsTime (zone.chars ++ rest) := by
  cases zone with
  | anywhere => exact hrest.endsTime
  | universal upper => cases upper <;> exact endsTime_cons (by decide) _
  | offset difference =>
    refine endsTime_cons ?_ _
    cases difference.west <;> decide

/-- No time begins with what may follow a value. -/
lemma Ends.afterTime?_tail (hrest : Ends (c :: w)) (hc : joinsTime c) : afterTime? w = none := by
  have hblank : c = ' ' := by
    have : (c = 'T' ∨ c = 't') ∨ c = ' ' := by simpa [joinsTime] using hc
    obtain (rfl | rfl) | rfl := this
    · exact absurd rfl (hrest.ne (by decide) (by decide) w)
    · exact absurd rfl (hrest.ne (by decide) (by decide) w)
    · rfl
  have hw : Ends w := by
    intro d v hd
    refine hrest d v ?_
    rw [skipBlanks_cons_of_isBlank (by rw [hblank]; rfl), hd]
  unfold afterTime?
  split
  · next h₁ h₂ m₁ m₂ s₁ s₂ rest =>
    have hdigit : h₁.isDigit = false := hw.eq_false (by decide)
    have hhour : twoDigits? h₁ h₂ 0 23 = none := if_neg fun hall => by simp [hdigit] at hall
    rw [hhour]
    rfl
  · rfl

/-- A moment is passed, and nothing of what follows it. -/
lemma Moment.afterMoment?_append (m : Moment) (hrest : Ends rest) :
    afterMoment? (m.chars ++ rest) = some rest := by
  cases m with
  | date day =>
    rw [chars, afterMoment?, day.afterDate?_append]
    cases rest with
    | nil => rfl
    | cons c w =>
      by_cases hc : joinsTime c
      · simp only [hc, if_true, hrest.afterTime?_tail hc]
      · simp only [hc]
        rfl
  | time clock =>
    have hdate : afterDate? (clock.chars ++ rest) = none := by
      simp only [Time.chars, pair, List.cons_append, List.nil_append]
      unfold afterDate?
      split
      · next h =>
        -- the third character of a time is its colon, that of a date a digit
        refine if_neg fun hall => ?_
        have hcolon := (List.cons.inj (List.cons.inj (List.cons.inj h).2).2).1
        simp only [List.all_cons, Bool.and_eq_true] at hall
        rw [← hcolon] at hall
        exact absurd hall.2.2.1 (by decide)
      · rfl
    rw [chars, afterMoment?, hdate]
    exact clock.afterTime?_append hrest.endsTime
  | both day between clock zone =>
    have htime := clock.afterTime?_append (zone.endsTime hrest)
    rw [chars, List.append_assoc, List.cons_append, List.append_assoc, afterMoment?,
      day.afterDate?_append]
    simp only [between.2, if_true, htime, zone.afterZone_append hrest]

/-- A moment is read as one. -/
lemma Moment.number?_append (m : Moment) (hrest : Ends rest) :
    number? (m.chars ++ rest) = some (.moment, rest) := by
  unfold number?
  rw [m.afterMoment?_append hrest]

end Moments

end CheckIn.Toml
