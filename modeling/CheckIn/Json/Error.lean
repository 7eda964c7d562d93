/-
# Faults of a JSON text

A JSON text is refused for one of three kinds of reason: it ends too early, it breaks the
grammar, or it is well formed but does not fit the value that is wanted.  Positions are not
kept.
-/
import CheckIn.Mismatch

namespace CheckIn.Json

/-- What was being read when the text ended. -/
inductive Unfinished
  | value
  | text
  | list
  | object
deriving DecidableEq, Repr

/-- How a text breaks the grammar, or a limit of the reader. -/
inductive Flaw
  /-- No value begins with this byte. -/
  | expectedValue
  /-- A word that begins like `null`, `true` or `false` is another one. -/
  | expectedWord
  /-- A field name is not followed by a colon. -/
  | expectedColon
  | expectedListSeparator
  | expectedObjectSeparator
  | fieldNameNotText
  | trailingComma
  | trailingCharacters
  | invalidNumber
  /-- A number too large for a double. -/
  | numberOutOfRange
  | invalidEscape
  | controlCharacter
  /-- A string is not UTF-8. -/
  | invalidUnicode
  /-- A half of a surrogate pair without the other one. -/
  | loneSurrogate
  /-- The first half of a surrogate pair is not followed by another escape. -/
  | unpairedSurrogate
  /-- Too many containers inside one another. -/
  | nestingLimit
deriving DecidableEq, Repr

/-- Why a JSON text is refused. -/
inductive Error
  | truncated (inside : Unfinished)
  | flawed (flaw : Flaw)
  | mismatched (mismatch : Mismatch)
deriving DecidableEq, Repr

def Unfinished.name : Unfinished → String
  | value => "a value"
  | text => "a string"
  | list => "a list"
  | object => "an object"

def Flaw.message : Flaw → String
  | expectedValue => "expected value"
  | expectedWord => "expected ident"
  | expectedColon => "expected `:`"
  | expectedListSeparator => "expected `,` or `]`"
  | expectedObjectSeparator => "expected `,` or `\x7d`"
  | fieldNameNotText => "key must be a string"
  | trailingComma => "trailing comma"
  | trailingCharacters => "trailing characters"
  | invalidNumber => "invalid number"
  | numberOutOfRange => "number out of range"
  | invalidEscape => "invalid escape"
  | controlCharacter => "control character (\\u0000-\\u001F) found while parsing a string"
  | invalidUnicode => "invalid unicode code point"
  | loneSurrogate => "lone leading surrogate in hex escape"
  | unpairedSurrogate => "unexpected end of hex escape"
  | nestingLimit => "recursion limit exceeded"

/-- The message of an error. -/
def Error.message : Error → String
  | truncated inside => "EOF while parsing " ++ inside.name
  | flawed flaw => flaw.message
  | mismatched mismatch => mismatch.message NumberStyle.json

end CheckIn.Json
