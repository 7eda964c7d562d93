/-
# Base64 without padding

Tunnel credentials are written in the standard alphabet, without padding, and are read strictly:
a foreign symbol, any padding, a last symbol with stray bits and an impossible length are each
refused, so that every text has one written form.

Groups of four symbols stand for three bytes.  The last group, complete or not, is read with
more care than the others, because only there padding and stray bits can occur.
-/

namespace CheckIn.Base64

/-! ## Symbols -/

/-- The value of a symbol of the alphabet. -/
def sextet? (symbol : UInt8) : Option Nat :=
  let n := symbol.toNat
  if 65 ≤ n ∧ n ≤ 90 then some (n - 65)
  else if 97 ≤ n ∧ n ≤ 122 then some (n - 71)
  else if 48 ≤ n ∧ n ≤ 57 then some (n + 4)
  else if n = 43 then some 62
  else if n = 47 then some 63
  else none

/-- The symbol of a value below 64. -/
def symbol (sextet : Nat) : UInt8 :=
  if sextet < 26 then UInt8.ofNat (sextet + 65)
  else if sextet < 52 then UInt8.ofNat (sextet + 71)
  else if sextet < 62 then UInt8.ofNat (sextet - 4)
  else if sextet = 62 then 43
  else 47

/-- The symbol that other conventions use to fill the last group. -/
def paddingSymbol : UInt8 := 61

/-! ## Writing -/

/-- The symbols of a sequence of bytes. -/
def encodeBytes : List UInt8 → List UInt8
  | a :: b :: c :: rest =>
    symbol (a.toNat / 4) :: symbol (a.toNat % 4 * 16 + b.toNat / 16) ::
      symbol (b.toNat % 16 * 4 + c.toNat / 64) :: symbol (c.toNat % 64) :: encodeBytes rest
  | [a, b] =>
    [symbol (a.toNat / 4), symbol (a.toNat % 4 * 16 + b.toNat / 16), symbol (b.toNat % 16 * 4)]
  | [a] => [symbol (a.toNat / 4), symbol (a.toNat % 4 * 16)]
  | [] => []

/-- The symbols of a sequence of bytes, as text. -/
def encode (bytes : List UInt8) : String :=
  String.ofList ((encodeBytes bytes).map fun b => Char.ofNat b.toNat)

/-! ## Reading -/

/-- Why a text is not unpadded base64. -/
inductive Fault
  /-- A byte that may not stand where it stands. -/
  | symbol (byte : UInt8) (offset : Nat)
  /-- A single symbol is left over after so many bytes. -/
  | length (count : Nat)
  /-- The last symbol carries bits that belong to no byte. -/
  | lastSymbol (byte : UInt8) (offset : Nat)
  /-- The last group is filled up. -/
  | padding
deriving DecidableEq, Repr

/-- The value of the symbol at an offset. -/
def sextetAt (offset : Nat) (byte : UInt8) : Except Fault Nat :=
  match sextet? byte with
  | some value => .ok value
  | none => .error (.symbol byte offset)

/-- A lone last byte outside the alphabet is reported first of all, as a line break at the end
of a text would otherwise be reported as something else. -/
def strayEnd? (bytes : List UInt8) : Option Fault :=
  if bytes.length % 4 = 1 then
    match bytes.getLast? with
    | some last =>
      if last ≠ paddingSymbol ∧ sextet? last = none then
        some (.symbol last (bytes.length - 1))
      else none
    | none => none
  else none

/-- The symbol values of the last group, up to where padding begins, and whether it begins.
`index` counts the bytes of the group before the given ones, `filled` is the index of the first
padding among them. -/
def lastSextets (offset : Nat) :
    (index : Nat) → (filled : Option Nat) → List UInt8 → Except Fault (List Nat × Bool)
  | _, filled, [] => .ok ([], filled.isSome)
  | index, filled, byte :: rest =>
    if byte = paddingSymbol then
      if index < 2 then .error (.symbol byte (offset + index))
      else lastSextets offset (index + 1) (filled.or (some index)) rest
    else
      match filled with
      | some first => .error (.symbol paddingSymbol (offset + first))
      | none => do
        let value ← sextetAt (offset + index) byte
        let (values, padded) ← lastSextets offset (index + 1) none rest
        return (value :: values, padded)

/-- The bytes of the last group, which has at most four symbols. -/
def decodeLast (offset : Nat) (bytes : List UInt8) : Except Fault (List UInt8) := do
  let (values, padded) ← lastSextets offset 0 none bytes
  if values.length < 2 then throw (.length (offset + values.length))
  if padded then throw .padding
  match values with
  | [a, b] =>
    if b % 16 ≠ 0 then throw (.lastSymbol (symbol b) (offset + 1))
    return [UInt8.ofNat (a * 4 + b / 16)]
  | [a, b, c] =>
    if c % 4 ≠ 0 then throw (.lastSymbol (symbol c) (offset + 2))
    return [UInt8.ofNat (a * 4 + b / 16), UInt8.ofNat (b % 16 * 16 + c / 4)]
  | [a, b, c, d] =>
    return [UInt8.ofNat (a * 4 + b / 16), UInt8.ofNat (b % 16 * 16 + c / 4),
      UInt8.ofNat (c % 4 * 64 + d)]
  | _ => return []

/-- The bytes of the groups from an offset on. -/
def decodeFrom (offset : Nat) : List UInt8 → Except Fault (List UInt8)
  | a :: b :: c :: d :: e :: rest => do
    let p ← sextetAt offset a
    let q ← sextetAt (offset + 1) b
    let r ← sextetAt (offset + 2) c
    let s ← sextetAt (offset + 3) d
    let more ← decodeFrom (offset + 4) (e :: rest)
    return UInt8.ofNat (p * 4 + q / 16) :: UInt8.ofNat (q % 16 * 16 + r / 4) ::
      UInt8.ofNat (r % 4 * 64 + s) :: more
  | [] => .ok []
  | last => decodeLast offset last

/-- The bytes that a text stands for. -/
def decode (bytes : List UInt8) : Except Fault (List UInt8) :=
  match strayEnd? bytes with
  | some fault => .error fault
  | none => decodeFrom 0 bytes

/-! ## Laws of the alphabet -/

theorem sextet?_symbol {value : Nat} (h : value < 64) : sextet? (symbol value) = some value := by
  revert value
  decide

theorem sextet?_lt {byte : UInt8} {value : Nat} (h : sextet? byte = some value) : value < 64 := by
  simp only [sextet?] at h
  split at h
  · cases h; omega
  split at h
  · cases h; omega
  split at h
  · cases h; omega
  split at h
  · cases h; omega
  split at h
  · cases h; omega
  · cases h

end CheckIn.Base64
