/-
# Written forms of doubles

Three texts of the agent contain doubles, and each has its own conventions: where positional
notation ends, whether a whole number keeps a decimal point, how an exponent looks.  A
convention is a value of `NumberStyle`; the digits come from `Binary64.shortest`.
-/
import CheckIn.Number.Shortest

namespace CheckIn

/-- The conventions by which a double is written. -/
structure NumberStyle where
  /-- Exponents of the first digit outside this range are written in scientific notation;
  without a range everything is positional. -/
  positional : Option (Int × Int)
  /-- What follows a whole number written positionally. -/
  wholeSuffix : String
  /-- Which of two equally near decimals is written. -/
  tie : TieRule
deriving Repr

namespace NumberStyle

/-- Numbers in prose: always positional, and no point in whole numbers. -/
def prose : NumberStyle := ⟨none, "", .up⟩

/-- Numbers in reports about configuration entries: always positional, always with a point. -/
def pointed : NumberStyle := ⟨none, ".0", .up⟩

/-- Numbers in JSON: positional from `0.00001` to below `10 ^ 16`, always with a point or an
exponent. -/
def json : NumberStyle := ⟨some (-5, 15), ".0", .toEven⟩

/-- Digits with the point after the first `whole` of them; zeros fill the gaps. -/
def placePoint (digits : List Char) (whole : Int) (wholeSuffix : String) : String :=
  let count : Int := digits.length
  if count ≤ whole then
    String.ofList (digits ++ List.replicate (whole - count).toNat '0') ++ wholeSuffix
  else if 0 < whole then
    String.ofList (digits.take whole.toNat ++ '.' :: digits.drop whole.toNat)
  else
    String.ofList ('0' :: '.' :: (List.replicate (-whole).toNat '0' ++ digits))

/-- Digits in scientific notation, the first one before the point, with a signed exponent. -/
def scientific (digits : List Char) (exponent : Int) : String :=
  let significand :=
    match digits with
    | [] => "0"
    | [d] => String.ofList [d]
    | d :: rest => String.ofList (d :: '.' :: rest)
  let sign := if exponent < 0 then "e-" else "e+"
  significand ++ sign ++ decimalNat exponent.natAbs

/-- A finite magnitude in the given style. -/
def magnitude (style : NumberStyle) (x : Binary64) : String :=
  if x.units = 0 then "0" ++ style.wholeSuffix
  else
    let d := x.shortest style.tie
    let digits := decimalDigits d.digits
    let whole : Int := digits.length + d.exponent
    match style.positional with
    | none => placePoint digits whole style.wholeSuffix
    | some (lowest, highest) =>
      if lowest ≤ whole - 1 ∧ whole - 1 ≤ highest then placePoint digits whole style.wholeSuffix
      else scientific digits (whole - 1)

/-- A double in the given style. -/
def write (style : NumberStyle) (x : Binary64) : String :=
  if x.isNaN then "NaN"
  else
    let sign := if x.isNegative then "-" else ""
    if x.isInfinite then sign ++ "inf" else sign ++ style.magnitude x

end NumberStyle

end CheckIn
