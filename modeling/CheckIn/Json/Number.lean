/-
# Reading JSON numbers

A number is read into a significand of 64 bits and a decimal exponent.  Digits that no longer
fit are dropped: those before the point still count as powers of ten.  A whole number that fits
is kept as it is; any other number becomes a double by one multiplication with, or division by,
a power of ten, so that long numbers are close to the nearest double but not always equal to it.
-/
import CheckIn.Json.Byte
import CheckIn.Json.Error
import CheckIn.Json.Value

namespace CheckIn.Json.Number
open Byte

/-! ## From significand and exponent to a number -/

/-- The largest power of ten that is a finite double. -/
def highestPower : Nat := 308

/-- A power of ten as a double. -/
def powerOfTen (n : Nat) : Binary64 := Binary64.ofNat (Nat.pow 10 n)

/-- A double times a power of ten.  Exponents below the range of doubles are approached in
steps; two of them leave nothing of a significand of 64 bits, so `steps` need not exceed two. -/
def scale : (steps : Nat) → Binary64 → Int → Except Error Binary64
  | steps, x, exponent =>
    if exponent.natAbs ≤ highestPower then
      if exponent < 0 then .ok (x.divMagnitude (powerOfTen exponent.natAbs))
      else
        let product := x.mulMagnitude (powerOfTen exponent.natAbs)
        if product.isFinite then .ok product else .error (.flawed .numberOutOfRange)
    else if x.units = 0 then .ok x
    else if 0 < exponent then .error (.flawed .numberOutOfRange)
    else
      match steps with
      | 0 => .ok .zero
      | steps + 1 => scale steps (x.divMagnitude (powerOfTen highestPower)) (exponent + highestPower)

/-- The double `± significand * 10 ^ exponent`. -/
def realOf (negative : Bool) (significand : Nat) (exponent : Int) : Except Error Number := do
  let x ← scale 2 (Binary64.ofNat significand) exponent
  return .real (if negative then x.neg else x)

/-- A number without point and exponent whose digits fit into 64 bits.  There is no negative
zero among the whole numbers, and the negative ones end at `-2 ^ 63`. -/
def wholeOf (negative : Bool) (magnitude : Nat) : Number :=
  if negative then
    if h : 0 < magnitude ∧ magnitude ≤ 0x8000000000000000 then .whole (-magnitude) (by omega)
    else .real (Binary64.ofNat magnitude).neg
  else
    if h : magnitude < 0x10000000000000000 then .whole magnitude (by omega)
    else .real (Binary64.ofNat magnitude)

/-! ## The grammar -/

/-- Appends digits to a significand as long as it stays below `2 ^ 64`: the new significand, the
number of digits taken, and the bytes from the first one not taken. -/
def fittingDigits (significand : Nat) : List UInt8 → Nat × Nat × List UInt8
  | [] => (significand, 0, [])
  | b :: rest =>
    if isDigit b ∧ significand * 10 + digitValue b < 0x10000000000000000 then
      let (longer, count, left) := fittingDigits (significand * 10 + digitValue b) rest
      (longer, count + 1, left)
    else (significand, 0, b :: rest)

/-- The value of the digits at the beginning. -/
def leadingValue (bytes : List UInt8) : Nat :=
  (bytes.takeWhile isDigit).foldl (fun value b => value * 10 + digitValue b) 0

/-- The sign of an exponent, if it is written. -/
def exponentSign : List UInt8 → Bool × List UInt8
  | plus :: rest => (false, rest)
  | minus :: rest => (true, rest)
  | bytes => (false, bytes)

/-- Reads on after the mark of an exponent. -/
def afterMark (negative : Bool) (significand : Nat) (exponent : Int) (bytes : List UInt8) :
    Except Error (Number × List UInt8) :=
  let (small, bytes) := exponentSign bytes
  match bytes with
  | [] => .error (.truncated .value)
  | b :: _ => do
    if !isDigit b then throw (.flawed .invalidNumber)
    let shift : Int := leadingValue bytes
    let number ← realOf negative significand (if small then exponent - shift else exponent + shift)
    return (number, bytes.dropWhile isDigit)

/-- Reads an exponent, if one follows. -/
def afterFraction (negative : Bool) (significand : Nat) (exponent : Int) (bytes : List UInt8) :
    Except Error (Number × List UInt8) :=
  match bytes with
  | lowerE :: rest | upperE :: rest => afterMark negative significand exponent rest
  | _ => do
    let number ← realOf negative significand exponent
    return (number, bytes)

/-- Reads on after the point. -/
def afterPoint (negative : Bool) (significand : Nat) (exponent : Int) (bytes : List UInt8) :
    Except Error (Number × List UInt8) :=
  let (longer, count, left) := fittingDigits significand bytes
  let rest := left.dropWhile isDigit
  if bytes.takeWhile isDigit = [] then
    match bytes with
    | [] => .error (.truncated .value)
    | _ :: _ => .error (.flawed .invalidNumber)
  else afterFraction negative longer (exponent - count) rest

/-- Reads on after the digits before the point, of which the last `dropped` do not fit. -/
def afterWhole (negative : Bool) (significand dropped : Nat) (bytes : List UInt8) :
    Except Error (Number × List UInt8) :=
  match bytes with
  | point :: rest => afterPoint negative significand dropped rest
  | lowerE :: rest | upperE :: rest => afterMark negative significand dropped rest
  | _ =>
    if dropped = 0 then .ok (wholeOf negative significand, bytes)
    else do
      let number ← realOf negative significand dropped
      return (number, bytes)

/-- Reads a number from its first digit on. -/
def read (negative : Bool) (bytes : List UInt8) : Except Error (Number × List UInt8) :=
  match bytes with
  | [] => .error (.truncated .value)
  | zero :: rest =>
    match rest with
    | [] => afterWhole negative 0 0 rest
    | b :: _ =>
      if isDigit b then .error (.flawed .invalidNumber) else afterWhole negative 0 0 rest
  | b :: _ =>
    if isDigit b then
      let (significand, _, left) := fittingDigits 0 bytes
      afterWhole negative significand (left.takeWhile isDigit).length (left.dropWhile isDigit)
    else .error (.flawed .invalidNumber)

/-! ## Passing over a number

A number in a field that is not known is not kept, so no size is too large for it; and it is
always refused as a number, also where the text ends. -/

/-- The bytes after at least one digit. -/
def skipDigits (bytes : List UInt8) : Except Error (List UInt8) :=
  match bytes with
  | [] => .error (.flawed .invalidNumber)
  | b :: rest =>
    if isDigit b then .ok (rest.dropWhile isDigit) else .error (.flawed .invalidNumber)

/-- The bytes after an exponent, if one follows. -/
def skipExponent (bytes : List UInt8) : Except Error (List UInt8) :=
  match bytes with
  | lowerE :: rest | upperE :: rest => skipDigits (exponentSign rest).2
  | _ => .ok bytes

/-- The bytes after a fraction and an exponent, as far as they follow. -/
def skipFraction (bytes : List UInt8) : Except Error (List UInt8) :=
  match bytes with
  | point :: rest => do skipExponent (← skipDigits rest)
  | _ => skipExponent bytes

/-- The bytes after a number, from its first digit on. -/
def skip (bytes : List UInt8) : Except Error (List UInt8) :=
  match bytes with
  | zero :: b :: rest =>
    if isDigit b then .error (.flawed .invalidNumber) else skipFraction (b :: rest)
  | _ => do skipFraction (← skipDigits bytes)

end CheckIn.Json.Number
