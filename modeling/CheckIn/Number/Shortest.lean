/-
# The fewest digits that read back

A finite double is written with the fewest significant decimal digits that still read back as
the same double, and of those with the digits nearest to its value.

The numbers that read back as a double form an interval around it.  The search looks at the
decimal grids of one, two, … seventeen digits; on each grid only the two neighbours of the value
can be the nearest, so the first grid with a neighbour inside the interval decides.
-/
import CheckIn.Number.Binary64
import CheckIn.Number.Decimal

namespace CheckIn

/-- Which of two decimals equally far from the value is written. -/
inductive TieRule
  /-- The one whose last digit is even. -/
  | toEven
  /-- The larger one. -/
  | up
deriving DecidableEq, Repr

/-- A positive decimal number `digits * 10 ^ exponent`. -/
structure DecimalForm where
  digits : Nat
  exponent : Int
deriving DecidableEq, Repr

namespace DecimalForm

/-- The same number without trailing zeros in its digits; at most `fuel` of them are dropped. -/
def trim : Nat → DecimalForm → DecimalForm
  | 0, d => d
  | fuel + 1, d =>
    if d.digits % 10 = 0 ∧ d.digits ≠ 0 then trim fuel ⟨d.digits / 10, d.exponent + 1⟩ else d

end DecimalForm

namespace Binary64

/-- The value, in quarters of a unit. -/
def quarters (x : Binary64) : Nat := 4 * x.units

/-- The number of quarters of a unit that make one. -/
def quartersPerOne : Nat := 4 * unitsPerOne

/-- The upper end of the interval that reads back, in quarters of a unit. -/
def upperEnd (x : Binary64) : Nat := x.quarters + 2 * Nat.pow 2 x.gap

/-- The lower end of the interval that reads back, in quarters of a unit.  Below a power of two
the neighbours are twice as dense. -/
def lowerEnd (x : Binary64) : Nat :=
  if x.fraction = 0 ∧ 1 < x.exponentField then x.quarters - Nat.pow 2 x.gap
  else x.quarters - 2 * Nat.pow 2 x.gap

/-- Whether `num / den` quarters read back as `x`; the ends do so if the significand is even. -/
def readsBack (x : Binary64) (num den : Nat) : Bool :=
  let closed := x.significand % 2 = 0
  (decide (x.lowerEnd * den < num) || (closed && decide (x.lowerEnd * den = num))) &&
    (decide (num < x.upperEnd * den) || (closed && decide (num = x.upperEnd * den)))

/-- The exponent of the first significant decimal digit of a positive value. -/
def decimalExponent (x : Binary64) : Int :=
  ((decimalDigits (x.units * Nat.pow 10 400 / unitsPerOne)).length : Int) - 401

/-- The neighbours of the value on the grid `10 ^ p`, tried against the interval: the nearer of
those inside, if any. -/
def onGrid? (tie : TieRule) (x : Binary64) (p : Int) : Option DecimalForm :=
  let gridNum := Nat.pow 10 p.toNat * quartersPerOne
  let gridDen := Nat.pow 10 (-p).toNat
  let below := x.quarters * gridDen / gridNum
  let rest := x.quarters * gridDen % gridNum
  let belowFits := x.readsBack (below * gridNum) gridDen
  let aboveFits := x.readsBack ((below + 1) * gridNum) gridDen
  let preferAbove :=
    match tie with
    | .up => decide (gridNum ≤ 2 * rest)
    | .toEven => decide (gridNum < 2 * rest) || (decide (2 * rest = gridNum) && below % 2 = 1)
  match belowFits, aboveFits with
  | true, true => some ⟨if preferAbove then below + 1 else below, p⟩
  | true, false => some ⟨below, p⟩
  | false, true => some ⟨below + 1, p⟩
  | false, false => none

/-- The first grid with a hit, from `count` digits on. -/
def shortestFrom (tie : TieRule) (x : Binary64) (first : Int) : Nat → Nat → Option DecimalForm
  | 0, _ => none
  | fuel + 1, count =>
    match x.onGrid? tie (first - count + 1) with
    | some d => some d
    | none => shortestFrom tie x first fuel (count + 1)

/-- The shortest decimal that reads back as a positive finite double. -/
def shortest (tie : TieRule) (x : Binary64) : DecimalForm :=
  let first := x.decimalExponent
  let found := (shortestFrom tie x first 17 1).getD ⟨0, 0⟩
  found.trim 18

end Binary64

end CheckIn
