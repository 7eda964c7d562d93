/-
# TOML numbers and moments

Whole numbers of 64 bits in four bases, doubles, and dates and times.  Underscores may stand
between two digits.
-/
import CheckIn.Number.Binary64
import CheckIn.Number.Decimal
import CheckIn.Toml.Text
import CheckIn.Toml.Value

namespace CheckIn.Toml

/-! ## Digits -/

/-- More digits, with single underscores before some of them. -/
def moreDigits (isDigit : Char → Bool) : List Char → Option (List Char × List Char)
  | [] => some ([], [])
  | '_' :: d :: rest =>
    if isDigit d then do
      let (more, left) ← moreDigits isDigit rest
      return (d :: more, left)
    else none
  | c :: rest =>
    if isDigit c then do
      let (more, left) ← moreDigits isDigit rest
      return (c :: more, left)
    else if c = '_' then none
    else some ([], c :: rest)

/-- At least one digit. -/
def digits? (isDigit : Char → Bool) : List Char → Option (List Char × List Char)
  | c :: rest =>
    if isDigit c then do
      let (more, left) ← moreDigits isDigit rest
      return (c :: more, left)
    else none
  | [] => none

/-- The digits of a whole number in base ten, which has no leading zeros. -/
def wholeDigits? : List Char → Option (List Char × List Char)
  | '0' :: rest => some (['0'], rest)
  | cs => digits? Char.isDigit cs

/-- A sign, if there is one: whether it is a minus, and what remains. -/
def sign : List Char → Bool × List Char
  | '+' :: rest => (false, rest)
  | '-' :: rest => (true, rest)
  | cs => (false, cs)

/-! ## Whole numbers -/

/-- A whole number that fits into 64 bits. -/
def integerOf? (negative : Bool) (magnitude : Nat) : Option Value :=
  let value : Int := if negative then -magnitude else magnitude
  if -0x8000000000000000 ≤ value ∧ value < 0x8000000000000000 then
    some (.integer (Int64.ofInt value))
  else none

/-- A natural number in a base of at most sixteen, after the mark of the base. -/
def inBase (base : Nat) (cs : List Char) : Option (Value × List Char) := do
  let isDigit (c : Char) : Bool := (hexValue? c).any fun value => decide (value < base)
  let (digits, rest) ← digits? isDigit cs
  let magnitude := digits.foldl (fun value c => value * base + (hexValue? c).getD 0) 0
  let value ← integerOf? false magnitude
  return (value, rest)

/-! ## Doubles -/

/-- The double nearest to `± significand * 10 ^ exponent`.  Far beyond the range of doubles the
power is not computed. -/
def decimalReal (negative : Bool) (significand : Nat) (exponent : Int) : Binary64 :=
  let size : Int := (decimalDigits significand).length + exponent
  if significand = 0 ∨ size < -400 then Binary64.ofMagnitude negative 0
  else if 400 < size then Binary64.ofMagnitude negative Binary64.infinityBits
  else
    Binary64.ofRatio negative (significand * Nat.pow 10 exponent.toNat)
      (Nat.pow 10 (-exponent).toNat)

/-- A double that was written in digits.  A positive one must be finite. -/
def realOf? (negative : Bool) (significand : Nat) (exponent : Int) : Option Value :=
  let value := decimalReal negative significand exponent
  if !negative && value.isInfinite then none else some (.real value)

/-- An exponent after its mark. -/
def exponent? (cs : List Char) : Option (Int × List Char) := do
  let (negative, cs) := sign cs
  let (digits, rest) ← digits? Char.isDigit cs
  let value : Int := digitsValue digits
  return (if negative then -value else value, rest)

/-- A number in base ten, after its sign. -/
def decimal? (negative : Bool) (cs : List Char) : Option (Value × List Char) := do
  let (whole, rest) ← wholeDigits? cs
  let atMark : List Char → Option (Option (List Char))
    | 'e' :: rest => some (some rest)
    | 'E' :: rest => some (some rest)
    | _ => some none
  let finish (digits : List Char) (places : Nat) (rest : List Char) :
      Option (Value × List Char) := do
    match ← atMark rest with
    | some rest =>
      let (exponent, rest) ← exponent? rest
      return (← realOf? negative (digitsValue digits) (exponent - places), rest)
    | none => return (← realOf? negative (digitsValue digits) (-(places : Int)), rest)
  match rest with
  | '.' :: rest => do
    let (fraction, rest) ← digits? Char.isDigit rest
    finish (whole ++ fraction) fraction.length rest
  | 'e' :: _ => finish whole 0 rest
  | 'E' :: _ => finish whole 0 rest
  | _ => return (← integerOf? negative (digitsValue whole), rest)

/-- The doubles that are not numbers, after their sign. -/
def special? (negative : Bool) : List Char → Option (Value × List Char)
  | 'i' :: 'n' :: 'f' :: rest =>
    some (.real (Binary64.ofMagnitude negative Binary64.infinityBits), rest)
  | 'n' :: 'a' :: 'n' :: rest =>
    some (.real ⟨if negative then 0xfff8000000000000 else 0x7ff8000000000000⟩, rest)
  | _ => none

/-! ## Moments -/

/-- The value of two digits, if it lies in a range. -/
def twoDigits? (a b : Char) (lowest highest : Nat) : Option Nat :=
  let value := digitsValue [a, b]
  if a.isDigit ∧ b.isDigit ∧ lowest ≤ value ∧ value ≤ highest then some value else none

/-- The number of days of a month. -/
def daysOfMonth (year month : Nat) : Nat :=
  if month = 2 then
    if (year % 4 = 0 ∧ year % 100 ≠ 0) ∨ year % 400 = 0 then 29 else 28
  else if month = 4 ∨ month = 6 ∨ month = 9 ∨ month = 11 then 30
  else 31

/-- What remains after a date. -/
def afterDate? : List Char → Option (List Char)
  | y₁ :: y₂ :: y₃ :: y₄ :: '-' :: m₁ :: m₂ :: '-' :: d₁ :: d₂ :: rest => do
    if [y₁, y₂, y₃, y₄].all Char.isDigit then
      let month ← twoDigits? m₁ m₂ 1 12
      let _ ← twoDigits? d₁ d₂ 1 (daysOfMonth (digitsValue [y₁, y₂, y₃, y₄]) month)
      return rest
    else none
  | _ => none

/-- What remains after a fraction of a second, if there is one. -/
def afterSecondFraction : List Char → List Char
  | '.' :: rest =>
    if (rest.takeWhile Char.isDigit).isEmpty then '.' :: rest else rest.dropWhile Char.isDigit
  | cs => cs

/-- What remains after a time of day. -/
def afterTime? : List Char → Option (List Char)
  | h₁ :: h₂ :: ':' :: m₁ :: m₂ :: ':' :: s₁ :: s₂ :: rest => do
    let _ ← twoDigits? h₁ h₂ 0 23
    let _ ← twoDigits? m₁ m₂ 0 59
    let _ ← twoDigits? s₁ s₂ 0 60
    return afterSecondFraction rest
  | _ => none

/-- What remains after an offset from universal time, in hours and minutes. -/
def afterOffset? : List Char → Option (List Char)
  | h₁ :: h₂ :: ':' :: m₁ :: m₂ :: rest => do
    let _ ← twoDigits? h₁ h₂ 0 23
    let _ ← twoDigits? m₁ m₂ 0 59
    return rest
  | _ => none

/-- What remains after a zone, if there is one. -/
def afterZone (cs : List Char) : List Char :=
  match cs with
  | 'Z' :: rest => rest
  | 'z' :: rest => rest
  | '+' :: rest => (afterOffset? rest).getD cs
  | '-' :: rest => (afterOffset? rest).getD cs
  | _ => cs

/-- Whether a character may stand between a date and a time. -/
def joinsTime (c : Char) : Bool := c = 'T' || c = 't' || c = ' '

/-- What remains after a date, a time, or a date with a time. -/
def afterMoment? (cs : List Char) : Option (List Char) :=
  match afterDate? cs with
  | some rest =>
    match rest with
    | c :: later =>
      if joinsTime c then
        match afterTime? later with
        | some left => some (afterZone left)
        | none => some rest
      else some rest
    | [] => some rest
  | none => afterTime? cs

/-! ## All of them -/

/-- A number or a moment, which begins with a sign or a digit. -/
def number? (cs : List Char) : Option (Value × List Char) :=
  match afterMoment? cs with
  | some rest => some (.moment, rest)
  | none =>
    match cs with
    | '0' :: 'x' :: rest => inBase 16 rest
    | '0' :: 'o' :: rest => inBase 8 rest
    | '0' :: 'b' :: rest => inBase 2 rest
    | _ =>
      let (negative, rest) := sign cs
      match special? negative rest with
      | some read => some read
      | none => decimal? negative rest

end CheckIn.Toml
