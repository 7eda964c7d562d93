/-
# Reading JSON values

A reader takes a value from the beginning of a byte sequence and returns it with the bytes that
remain, or reports the first fault in the order of the text.  Readers of lists and objects are
built from readers of what they contain.

Containers that are kept may be nested up to a limit, given as the number of containers that
may still be opened, the `room`.  Values of fields that nobody knows are passed over without
that limit, by `skipValue`.
-/
import CheckIn.Json.Number
import CheckIn.Json.Text

namespace CheckIn.Json
open Byte

/-- Takes a value from the beginning of the bytes, and leaves the others. -/
abbrev Reader (α : Type) := StateT (List UInt8) (Except Error) α

/-- How many containers that are kept may be open at once. -/
def nestingRoom : Nat := 127

/-- Refuses a value that is well formed but does not fit. -/
def refuse {α : Type} (mismatch : Mismatch) : Reader α := throw (.mismatched mismatch)

/-! ## Words, lists and objects -/

/-- The bytes after the given rest of a word. -/
def afterWord : (letters : List UInt8) → List UInt8 → Except Error (List UInt8)
  | [], bytes => .ok bytes
  | _ :: _, [] => .error (.truncated .value)
  | letter :: letters, b :: rest =>
    if b = letter then afterWord letters rest else .error (.flawed .expectedWord)

/-- The bytes after the `n` of `null`. -/
def afterNull : List UInt8 → Except Error (List UInt8) := afterWord (utf8 "ull")

/-- The bytes after the `t` of `true`. -/
def afterTrue : List UInt8 → Except Error (List UInt8) := afterWord (utf8 "rue")

/-- The bytes after the `f` of `false`. -/
def afterFalse : List UInt8 → Except Error (List UInt8) := afterWord (utf8 "alse")

/-- Goes to the next item of a list, past the comma between two items; `false` at the closing
bracket, which is left. -/
def nextItem (first : Bool) : Reader Bool := fun bytes =>
  match skipBlanks bytes with
  | [] => .error (.truncated .list)
  | closeBracket :: rest => .ok (false, closeBracket :: rest)
  | b :: rest =>
    if first then .ok (true, b :: rest)
    else if b = comma then
      match skipBlanks rest with
      | [] => .error (.truncated .value)
      | closeBracket :: _ => .error (.flawed .trailingComma)
      | rest => .ok (true, rest)
    else .error (.flawed .expectedListSeparator)

/-- Takes the closing bracket of a list of which no more items are wanted. -/
def closeList : Reader Unit := fun bytes =>
  match skipBlanks bytes with
  | [] => .error (.truncated .list)
  | closeBracket :: rest => .ok ((), rest)
  | comma :: rest =>
    match skipBlanks rest with
    | closeBracket :: _ => .error (.flawed .trailingComma)
    | _ => .error (.flawed .trailingCharacters)
  | _ => .error (.flawed .trailingCharacters)

/-- The items of a list up to its closing bracket, at most `fuel` steps of it. -/
def items {α : Type} (item : Reader α) : (fuel : Nat) → (first : Bool) → Reader (List α)
  | 0, _ => throw (.truncated .list)
  | fuel + 1, first => do
    if ← nextItem first then
      let head ← item
      let tail ← items item fuel false
      return head :: tail
    else
      closeList
      return []

/-- A list from after its opening bracket.  Each item has at least one byte, so the number of
bytes bounds the number of steps. -/
def list {α : Type} (item : Reader α) : Reader (List α) := fun bytes =>
  items item (bytes.length + 1) true bytes

/-- Takes the name of the next field of an object, past the comma between two fields; nothing
after the closing brace, which is taken. -/
def nextField (first : Bool) : Reader (Option String) := fun bytes =>
  match skipBlanks bytes with
  | [] => .error (.truncated .object)
  | closeBrace :: rest => .ok (none, rest)
  | b :: rest =>
    if first then
      if b = quote then do
        let (name, rest) ← Text.read rest
        return (some name, rest)
      else .error (.flawed .fieldNameNotText)
    else if b = comma then
      match skipBlanks rest with
      | [] => .error (.truncated .value)
      | quote :: rest => do
        let (name, rest) ← Text.read rest
        return (some name, rest)
      | closeBrace :: _ => .error (.flawed .trailingComma)
      | _ => .error (.flawed .fieldNameNotText)
    else .error (.flawed .expectedObjectSeparator)

/-- Takes the colon between a name and its value. -/
def separator : Reader Unit := fun bytes =>
  match skipBlanks bytes with
  | [] => .error (.truncated .object)
  | colon :: rest => .ok ((), rest)
  | _ => .error (.flawed .expectedColon)

/-- The fields of an object up to its closing brace, at most `fuel` steps of it.  `field` is
called after each name and takes the separator and the value. -/
def fields {σ : Type} (field : String → σ → Reader σ) :
    (fuel : Nat) → (first : Bool) → σ → Reader σ
  | 0, _, _ => throw (.truncated .object)
  | fuel + 1, first, state => do
    match ← nextField first with
    | none => return state
    | some name =>
      let state ← field name state
      fields field fuel false state

/-- An object from after its opening brace. -/
def object {σ : Type} (field : String → σ → Reader σ) (state : σ) : Reader σ := fun bytes =>
  fields field (bytes.length + 1) true state bytes

/-! ## Values of any kind -/

/-- A value of any kind. -/
def value (room : Nat) : Reader Value := fun bytes =>
  match skipBlanks bytes with
  | [] => .error (.truncated .value)
  | lowerN :: rest => do return (.null, ← afterNull rest)
  | lowerT :: rest => do return (.boolean true, ← afterTrue rest)
  | lowerF :: rest => do return (.boolean false, ← afterFalse rest)
  | minus :: rest => do
    let (number, rest) ← Number.read true rest
    return (.number number, rest)
  | quote :: rest => do
    let (content, rest) ← Text.read rest
    return (.text content, rest)
  | openBracket :: rest =>
    match room with
    | 0 => .error (.flawed .nestingLimit)
    | room + 1 => do
      let (content, rest) ← list (value room) rest
      return (.array content, rest)
  | openBrace :: rest =>
    match room with
    | 0 => .error (.flawed .nestingLimit)
    | room + 1 => do
      let (content, rest) ← object (fun name sorted => do
        separator
        return insertField name (← value room) sorted) [] rest
      return (.object content, rest)
  | b :: rest =>
    if isDigit b then do
      let (number, rest) ← Number.read false (b :: rest)
      return (.number number, rest)
    else .error (.flawed .expectedValue)

/-! ## Values that are passed over -/

mutual

/-- The bytes after a value, whatever its kind. -/
def skipFrom : (fuel : Nat) → List UInt8 → Except Error (List UInt8)
  | 0, _ => .error (.truncated .value)
  | fuel + 1, bytes =>
    match skipBlanks bytes with
    | [] => .error (.truncated .value)
    | lowerN :: rest => afterNull rest
    | lowerT :: rest => afterTrue rest
    | lowerF :: rest => afterFalse rest
    | minus :: rest => Number.skip rest
    | quote :: rest => Text.skip rest
    | openBracket :: rest =>
      match skipBlanks rest with
      | [] => .error (.truncated .list)
      | closeBracket :: rest => .ok rest
      | rest => skipItems fuel rest
    | openBrace :: rest =>
      match skipBlanks rest with
      | [] => .error (.truncated .object)
      | closeBrace :: rest => .ok rest
      | rest => skipFields fuel rest
    | b :: rest =>
      if isDigit b then Number.skip (b :: rest) else .error (.flawed .expectedValue)

/-- The bytes after the items of a list and its closing bracket. -/
def skipItems : (fuel : Nat) → List UInt8 → Except Error (List UInt8)
  | 0, _ => .error (.truncated .list)
  | fuel + 1, bytes => do
    let rest ← skipFrom fuel bytes
    match skipBlanks rest with
    | [] => .error (.truncated .list)
    | comma :: rest => skipItems fuel rest
    | closeBracket :: rest => .ok rest
    | _ => .error (.flawed .expectedListSeparator)

/-- The bytes after the fields of an object and its closing brace. -/
def skipFields : (fuel : Nat) → List UInt8 → Except Error (List UInt8)
  | 0, _ => .error (.truncated .object)
  | fuel + 1, bytes =>
    match skipBlanks bytes with
    | [] => .error (.truncated .object)
    | quote :: rest => do
      let rest ← Text.skip rest
      let ((), rest) ← separator rest
      let rest ← skipFrom fuel rest
      match skipBlanks rest with
      | [] => .error (.truncated .object)
      | comma :: rest => skipFields fuel rest
      | closeBrace :: rest => .ok rest
      | _ => .error (.flawed .expectedObjectSeparator)
    | _ => .error (.flawed .fieldNameNotText)

end

/-- Passes over a value of any kind.  Each container and each item has a byte of its own, so
twice the number of bytes bounds the number of steps. -/
def skipValue : Reader Unit := fun bytes => do
  return ((), ← skipFrom (2 * bytes.length + 1) bytes)

/-! ## Values of one kind -/

/-- Why the value at the beginning is not of the wanted kind.  Scalars are read to be shown, so
their own faults come first; containers are not entered. -/
def misfit (wanted : String) (bytes : List UInt8) : Error :=
  let report (found : Found) : Error := .mismatched (.wrongType found wanted)
  let after {α : Type} (read : Except Error α) (found : α → Found) : Error :=
    match read with
    | .error fault => fault
    | .ok content => report (found content)
  let shown (number : Number × List UInt8) : Found :=
    match number.1 with
    | .whole value _ => .integer value
    | .real value => .real value
  match skipBlanks bytes with
  | [] => .truncated .value
  | lowerN :: rest => after (afterNull rest) fun _ => .null
  | lowerT :: rest => after (afterTrue rest) fun _ => .boolean true
  | lowerF :: rest => after (afterFalse rest) fun _ => .boolean false
  | minus :: rest => after (Number.read true rest) shown
  | quote :: rest => after (Text.read rest) fun content => .text content.1
  | openBracket :: _ => report .sequence
  | openBrace :: _ => report .map
  | b :: rest =>
    if isDigit b then after (Number.read false (b :: rest)) shown
    else .flawed .expectedValue

/-- Refuses the value at the beginning because another kind is wanted. -/
def misplaced {α : Type} (wanted : String) : Reader α := fun bytes => .error (misfit wanted bytes)

/-- A text. -/
def text (wanted : String) : Reader String := fun bytes =>
  match skipBlanks bytes with
  | quote :: rest => Text.read rest
  | bytes => misplaced wanted bytes

/-- A truth value. -/
def boolean : Reader Bool := fun bytes =>
  match skipBlanks bytes with
  | lowerT :: rest => do return (true, ← afterTrue rest)
  | lowerF :: rest => do return (false, ← afterFalse rest)
  | bytes => misplaced "a boolean" bytes

/-- Nothing, written `null`. -/
def nothing : Reader Unit := fun bytes =>
  match skipBlanks bytes with
  | lowerN :: rest => do return ((), ← afterNull rest)
  | bytes => misplaced "unit" bytes

/-- A number. -/
def number (wanted : String) : Reader Number := fun bytes =>
  match skipBlanks bytes with
  | minus :: rest => Number.read true rest
  | [] => misplaced wanted []
  | b :: rest =>
    if isDigit b then Number.read false (b :: rest) else misplaced wanted (b :: rest)

/-- A signed whole number of 64 bits. -/
def signed : Reader Int64 := do
  match ← number "i64" with
  | .whole value _ =>
    if -0x8000000000000000 ≤ value ∧ value < 0x8000000000000000 then return Int64.ofInt value
    else refuse (.wrongValue (.integer value) "i64")
  | .real value => refuse (.wrongType (.real value) "i64")

/-- A natural number of 64 bits. -/
def unsigned : Reader UInt64 := do
  match ← number "u64" with
  | .whole value _ =>
    if 0 ≤ value then return UInt64.ofNat value.toNat
    else refuse (.wrongValue (.integer value) "u64")
  | .real value => refuse (.wrongType (.real value) "u64")

/-- A number as a double. -/
def real : Reader Binary64 := do return (← number "f64").toBinary64

/-- A value or `null`. -/
def optional {α : Type} (read : Reader α) : Reader (Option α) := fun bytes =>
  match skipBlanks bytes with
  | lowerN :: rest => do return (none, ← afterNull rest)
  | bytes => do
    let (content, rest) ← read bytes
    return (some content, rest)

/-- A list; `item` is given the room inside of it. -/
def sequence {α : Type} (room : Nat) (item : Nat → Reader α) : Reader (List α) := fun bytes =>
  match skipBlanks bytes with
  | openBracket :: rest =>
    match room with
    | 0 => .error (.flawed .nestingLimit)
    | room + 1 => list (item room) rest
  | bytes => misplaced "a sequence" bytes

/-! ## Whole texts -/

/-- A text that holds one value, with blanks around it, and nothing else. -/
def Reader.whole {α : Type} (read : Reader α) (bytes : List UInt8) : Except Error α := do
  let (content, rest) ← read bytes
  match skipBlanks rest with
  | [] => return content
  | _ :: _ => throw (.flawed .trailingCharacters)

end CheckIn.Json
