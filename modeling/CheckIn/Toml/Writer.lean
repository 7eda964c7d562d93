/-
# Writing TOML entries

Each entry is written on a line of its own.  Of the four forms of a string the plainest one
that can hold the text is taken: basic if nothing needs an escape, else literal, else a form of
several lines, else basic with escapes.
-/
import CheckIn.Number.Decimal

namespace CheckIn.Toml

/-! ## Strings -/

/-- A control character that no string holds as it is; a tab and a line feed are none. -/
def isControl (c : Char) : Bool :=
  (decide (c.toNat < 0x20) && c ≠ '\t' && c ≠ '\n') || c = '\x7f'

/-- The length of the longest run of a character; `run` is the length of the current one. -/
def longestRun (char : Char) : (run : Nat) → List Char → Nat
  | run, [] => run
  | run, c :: rest =>
    if c = char then longestRun char (run + 1) rest else max run (longestRun char 0 rest)

/-- The four forms of a string. -/
inductive Form
  | basic
  | literal
  | multiBasic
  | multiLiteral
deriving DecidableEq, Repr

/-- The form in which a text is written. -/
def Form.of (cs : List Char) : Form :=
  let controls := cs.any isControl
  let escapes := controls || cs.contains '\\'
  let lines := cs.contains '\n'
  if !escapes && !cs.contains '"' && !lines then basic
  else if !controls && !cs.contains '\'' && !lines then literal
  else if !escapes && decide (longestRun '"' 0 cs ≤ 2) then multiBasic
  else if !controls && decide (longestRun '\'' 0 cs ≤ 2) then multiLiteral
  else if lines then multiBasic
  else basic

/-- A digit of base sixteen, in upper case. -/
def upperHexDigit (n : Nat) : Char := (Nat.digitChar n).toUpper

/-- How a character other than a quote is written in a basic string. -/
def escape (lines : Bool) (c : Char) : List Char :=
  match c with
  | '\\' => ['\\', '\\']
  | '\x08' => ['\\', 'b']
  | '\t' => ['\\', 't']
  | '\x0c' => ['\\', 'f']
  | '\r' => ['\\', 'r']
  | '\n' => if lines then ['\n'] else ['\\', 'n']
  | c =>
    if isControl c then
      ['\\', 'u', '0', '0', upperHexDigit (c.toNat / 16), upperHexDigit (c.toNat % 16)]
    else [c]

/-- The content of a basic string.  At most `allowed` quotes in a row stand as they are; `run`
is their number so far. -/
def escapeAll (lines : Bool) (allowed : Nat) : (run : Nat) → List Char → List Char
  | _, [] => []
  | run, c :: rest =>
    if c = '"' then
      if run < allowed then '"' :: escapeAll lines allowed (run + 1) rest
      else '\\' :: '"' :: escapeAll lines allowed 0 rest
    else escape lines c ++ escapeAll lines allowed 0 rest

/-- A text in a form that can hold it.  A form of several lines begins with a line break of its
own if the text has one. -/
def Form.write (form : Form) (cs : List Char) : List Char :=
  let opening := if cs.contains '\n' then ['\n'] else []
  match form with
  | basic => ['"'] ++ escapeAll false 0 0 cs ++ ['"']
  | literal => ['\''] ++ cs ++ ['\'']
  | multiBasic => ['"', '"', '"'] ++ opening ++ escapeAll true 2 0 cs ++ ['"', '"', '"']
  | multiLiteral => ['\'', '\'', '\''] ++ opening ++ cs ++ ['\'', '\'', '\'']

/-- A text as a string. -/
def writeText (text : String) : List Char := (Form.of text.toList).write text.toList

/-! ## Other values and entries -/

/-- A truth value. -/
def writeBoolean (value : Bool) : List Char := (if value then "true" else "false").toList

/-- A natural number that fits into 63 bits. -/
def writeNatural? (value : Nat) : Option (List Char) :=
  if value < 0x8000000000000000 then some (decimalDigits value) else none

/-- A line that gives a written value to a bare name. -/
def writeEntry (name : String) (written : List Char) : List Char :=
  name.toList ++ [' ', '=', ' '] ++ written ++ ['\n']

end CheckIn.Toml
