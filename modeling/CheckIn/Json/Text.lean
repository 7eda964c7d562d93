/-
# JSON strings

A string is written between quotes; quotes, backslashes and control characters are escaped.  It
is read as bytes: escapes are resolved first, and what results has to be UTF-8.
-/
import CheckIn.Json.Byte
import CheckIn.Json.Error
import CheckIn.Text.Utf8

namespace CheckIn.Json.Text
open Byte

/-! ## Writing -/

/-- How one character is written between the quotes. -/
def escape (c : Char) : List Char :=
  match c with
  | '"' => ['\\', '"']
  | '\\' => ['\\', '\\']
  | '\x08' => ['\\', 'b']
  | '\x0c' => ['\\', 'f']
  | '\n' => ['\\', 'n']
  | '\r' => ['\\', 'r']
  | '\t' => ['\\', 't']
  | c =>
    if c.toNat < 0x20 then
      ['\\', 'u', '0', '0', Nat.digitChar (c.toNat / 16), Nat.digitChar (c.toNat % 16)]
    else [c]

/-- A text between quotes. -/
def write (s : String) : List Char := '"' :: (s.toList.flatMap escape ++ ['"'])

/-! ## Reading -/

/-- The byte for which a letter after the backslash stands. -/
def unescape? (letter : UInt8) : Option UInt8 :=
  match letter with
  | quote => some 0x22
  | backslash => some 0x5c
  | slash => some 0x2f
  | lowerB => some 0x08
  | lowerF => some 0x0c
  | lowerN => some 0x0a
  | lowerR => some 0x0d
  | lowerT => some 0x09
  | _ => none

def isLeadingSurrogate (unit : Nat) : Bool := decide (0xd800 ≤ unit ∧ unit ≤ 0xdbff)

def isTrailingSurrogate (unit : Nat) : Bool := decide (0xdc00 ≤ unit ∧ unit ≤ 0xdfff)

/-- The code point of a surrogate pair. -/
def pairValue (leading trailing : Nat) : Nat :=
  (leading - 0xd800) * 0x400 + (trailing - 0xdc00) + 0x10000

/-- The bytes of the character with a code point. -/
def pointBytes (point : Nat) : List UInt8 := String.utf8EncodeChar (Char.ofNat point)

/-- Why the bytes after a leading surrogate are not the escape of a trailing one. -/
def unpaired : List UInt8 → Error
  | [] => .truncated .text
  | [backslash] => .truncated .text
  | backslash :: lowerU :: _ => .truncated .text
  | _ => .flawed .unpairedSurrogate

/-- The bytes of a string after its opening quote, with escapes resolved, and what remains
after the closing quote. -/
def resolve : List UInt8 → Except Error (List UInt8 × List UInt8)
  | [] => .error (.truncated .text)
  | quote :: rest => .ok ([], rest)
  | backslash :: lowerU :: a :: b :: c :: d :: rest =>
    match hexValue4? a b c d with
    | none => .error (.flawed .invalidEscape)
    | some unit =>
      if isTrailingSurrogate unit then .error (.flawed .loneSurrogate)
      else if isLeadingSurrogate unit then
        match rest with
        | backslash :: lowerU :: e :: f :: g :: h :: rest =>
          match hexValue4? e f g h with
          | none => .error (.flawed .invalidEscape)
          | some second =>
            if isTrailingSurrogate second then do
              let (more, left) ← resolve rest
              return (pointBytes (pairValue unit second) ++ more, left)
            else .error (.flawed .loneSurrogate)
        | rest => .error (unpaired rest)
      else do
        let (more, left) ← resolve rest
        return (pointBytes unit ++ more, left)
  | backslash :: lowerU :: _ => .error (.truncated .text)
  | [backslash] => .error (.truncated .text)
  | backslash :: letter :: rest =>
    match unescape? letter with
    | none => .error (.flawed .invalidEscape)
    | some byte => do
      let (more, left) ← resolve rest
      return (byte :: more, left)
  | byte :: rest =>
    if byte < 0x20 then .error (.flawed .controlCharacter)
    else do
      let (more, left) ← resolve rest
      return (byte :: more, left)

/-- Reads a string from after its opening quote. -/
def read (bytes : List UInt8) : Except Error (String × List UInt8) := do
  let (content, rest) ← resolve bytes
  match ofUtf8? content with
  | some s => return (s, rest)
  | none => throw (.flawed .invalidUnicode)

/-- Passes over a string from after its opening quote.  Escapes need only be well formed, and
the bytes need not be UTF-8. -/
def skip : List UInt8 → Except Error (List UInt8)
  | [] => .error (.truncated .text)
  | quote :: rest => .ok rest
  | backslash :: lowerU :: a :: b :: c :: d :: rest =>
    match hexValue4? a b c d with
    | none => .error (.flawed .invalidEscape)
    | some _ => skip rest
  | backslash :: lowerU :: _ => .error (.truncated .text)
  | [backslash] => .error (.truncated .text)
  | backslash :: letter :: rest =>
    match unescape? letter with
    | none => .error (.flawed .invalidEscape)
    | some _ => skip rest
  | byte :: rest => if byte < 0x20 then .error (.flawed .controlCharacter) else skip rest

end CheckIn.Json.Text
