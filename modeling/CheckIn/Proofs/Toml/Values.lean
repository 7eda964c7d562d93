/-
# Written values are read back

Texts, truth values and whole numbers below `2 ^ 63` are read back from the line on which they
stand.  A whole number is written as a number of the grammar without sign, fraction and exponent.
-/
import CheckIn.Proofs.Toml.Reading

namespace CheckIn.Toml

/-- What is written at the end of a line reads as a value. -/
def Reads (written : List Char) (value : Value) : Prop :=
  ∀ room rest, value? room (written ++ '\n' :: rest) = some (value, '\n' :: rest)

/-! ## Texts and truth values -/

/-- A string begins with a quote of one of the two kinds. -/
lemma Form.write_eq_cons (form : Form) (s : List Char) :
    ∃ c w, form.write s = c :: w ∧ (c = '"' ∨ c = '\'') := by
  cases form
  · exact ⟨_, _, rfl, .inl rfl⟩
  · exact ⟨_, _, rfl, .inr rfl⟩
  · exact ⟨_, _, rfl, .inl rfl⟩
  · exact ⟨_, _, rfl, .inr rfl⟩

theorem reads_writeText (text : String) : Reads (writeText text) (.text text) := by
  intro room rest
  have h := text?_writeText text rest
  obtain ⟨c, w, hw, hc⟩ := (Form.of text.toList).write_eq_cons text.toList
  rw [writeText, hw, List.cons_append] at h ⊢
  rw [value?_quote hc, h, Option.map_some]

theorem reads_writeBoolean (value : Bool) : Reads (writeBoolean value) (.boolean value) := by
  intro room rest
  cases value
  · exact value?_false room _
  · exact value?_true room _

/-! ## Whole numbers -/

/-- The decimal digits of a natural number as a number of the grammar. -/
lemma exists_numeral (n : Nat) :
    ∃ numeral : Numeral, numeral.chars = decimalDigits n ∧
      numeral.value? = integerOf? false n := by
  have hdigit : ∀ d ∈ decimalDigits n, d.isDigit := fun _ => isDigit_of_mem_decimalDigits
  have hvalue := digitsValue_decimalDigits n
  cases hd : decimalDigits n with
  | nil => exact absurd hd (decimalDigits_ne_nil n)
  | cons c ds =>
    rw [hd] at hdigit hvalue
    have hmore : ∀ d ∈ ds.map (Prod.mk false), d.2.isDigit := by
      intro d hmem
      obtain ⟨e, he, rfl⟩ := List.mem_map.1 hmem
      exact hdigit e (List.mem_cons_of_mem c he)
    refine ⟨⟨none, ⟨c, ds.map (Prod.mk false), hdigit c List.mem_cons_self, hmore⟩,
      fun hc => ?_, none, none⟩, ?_, ?_⟩
    · have hzero : c = '0' := hc
      have hnil : ds = [] := decimalDigits_zero (hzero ▸ hd)
      show ds.map (Prod.mk false) = []
      rw [hnil, List.map_nil]
    · simp [Numeral.chars, Numeral.magnitudeChars, Digits.chars, Digits.moreChars, signChars,
        Numeral.fractionChars, Numeral.exponentChars, List.flatMap_map]
    · simp [Numeral.value?, Numeral.significand, Numeral.places, Digits.digits, Function.comp_def,
        hvalue]

/-- A whole number below `2 ^ 63` is read back. -/
theorem reads_decimalDigits {n : Nat} (hn : n < 0x8000000000000000) :
    Reads (decimalDigits n) (.integer (Int64.ofNat n)) := by
  intro room rest
  have hfit : integerOf? false n = some (.integer (Int64.ofNat n)) := by
    simp only [integerOf?, Bool.false_eq_true, if_false]
    rw [if_pos (by omega), Int64.ofInt_eq_ofNat]
  obtain ⟨numeral, hchars, hvalue⟩ := exists_numeral n
  have hends : Ends ('\n' :: rest) := ends_cons (by decide) rest
  have hread := numeral.value?_append room hends
  rw [hchars, hvalue, hfit] at hread
  exact hread

end CheckIn.Toml
