/-
# TOML strings and names

A string is basic, with escapes, or literal, without; and either kind has a form for one line
and a form for several.  Readers take the string from the beginning of the characters and return
it with what remains, or nothing if there is no string.
-/

namespace CheckIn.Toml

/-! ## Characters -/

/-- A space or a tab. -/
def isBlank (c : Char) : Bool := c = ' ' || c = '\t'

/-- What may stand in a comment or, as it is, in a string of one line. -/
def isPlain (c : Char) : Bool := c = '\t' || (decide (0x20 ≤ c.toNat) && c ≠ '\x7f')

/-- What may stand in a name without quotes. -/
def isBare (c : Char) : Bool := c.isAlphanum || c = '-' || c = '_'

/-- What remains after the blanks at the beginning. -/
def skipBlanks (cs : List Char) : List Char := cs.dropWhile isBlank

/-- What remains after a line break. -/
def newline? : List Char → Option (List Char)
  | '\n' :: rest => some rest
  | '\r' :: '\n' :: rest => some rest
  | _ => none

/-- The value of a hexadecimal digit of either case. -/
def hexValue? (c : Char) : Option Nat :=
  let n := c.toNat
  if 0x30 ≤ n ∧ n ≤ 0x39 then some (n - 0x30)
  else if 0x41 ≤ n ∧ n ≤ 0x46 then some (n - 0x37)
  else if 0x61 ≤ n ∧ n ≤ 0x66 then some (n - 0x57)
  else none

/-- The value of a run of hexadecimal digits. -/
def hexNumber? (digits : List Char) : Option Nat :=
  digits.foldlM (fun value c => (hexValue? c).map (value * 16 + ·)) 0

/-- The character of a code point; there is none among the surrogates. -/
def character? (point : Nat) : Option Char :=
  if h : point.isValidChar then some (Char.ofNatAux point h) else none

/-- The character with a code point in hexadecimal digits. -/
def escaped? (digits : List Char) : Option Char := hexNumber? digits >>= character?

/-- The character for which a letter after a backslash stands. -/
def unescape? (letter : Char) : Option Char :=
  match letter with
  | 'b' => some '\x08'
  | 't' => some '\t'
  | 'n' => some '\n'
  | 'f' => some '\x0c'
  | 'r' => some '\r'
  | '"' => some '"'
  | '\\' => some '\\'
  | _ => none

/-! ## Strings of one line -/

/-- A basic string of one line, from after its opening quote. -/
def basic : List Char → Option (List Char × List Char)
  | [] => none
  | '"' :: rest => some ([], rest)
  | '\\' :: 'u' :: a :: b :: c :: d :: rest => do
    let char ← escaped? [a, b, c, d]
    let (more, left) ← basic rest
    return (char :: more, left)
  | '\\' :: 'U' :: a :: b :: c :: d :: e :: f :: g :: h :: rest => do
    let char ← escaped? [a, b, c, d, e, f, g, h]
    let (more, left) ← basic rest
    return (char :: more, left)
  | ['\\'] => none
  | '\\' :: letter :: rest => do
    let char ← unescape? letter
    let (more, left) ← basic rest
    return (char :: more, left)
  | c :: rest =>
    if isPlain c then do
      let (more, left) ← basic rest
      return (c :: more, left)
    else none

/-- A literal string of one line, from after its opening quote. -/
def literal : List Char → Option (List Char × List Char)
  | [] => none
  | '\'' :: rest => some ([], rest)
  | c :: rest =>
    if isPlain c then do
      let (more, left) ← literal rest
      return (c :: more, left)
    else none

/-! ## Strings of several lines -/

/-- Quotes after the first three that close a string belong to its content, up to two. -/
def surplus (quote : Char) : List Char → List Char × List Char
  | a :: b :: rest =>
    if a = quote then if b = quote then ([a, b], rest) else ([a], b :: rest)
    else ([], a :: b :: rest)
  | [a] => if a = quote then ([a], []) else ([], [a])
  | [] => ([], [])

/-- Whether nothing but blanks stands before the next line break. -/
def endsLine (cs : List Char) : Bool := (newline? (skipBlanks cs)).isSome

/-- A basic string of several lines, from after its opening quotes.  A backslash at the end of a
line removes the break and all blanks and breaks after it; while they are passed over,
`trimming` is set. -/
def multiBasic : (trimming : Bool) → List Char → Option (List Char × List Char)
  | _, [] => none
  | _, '"' :: '"' :: '"' :: rest => some (surplus '"' rest)
  | _, '\\' :: 'u' :: a :: b :: c :: d :: rest => do
    let char ← escaped? [a, b, c, d]
    let (more, left) ← multiBasic false rest
    return (char :: more, left)
  | _, '\\' :: 'U' :: a :: b :: c :: d :: e :: f :: g :: h :: rest => do
    let char ← escaped? [a, b, c, d, e, f, g, h]
    let (more, left) ← multiBasic false rest
    return (char :: more, left)
  | _, ['\\'] => none
  | _, '\\' :: letter :: rest =>
    if endsLine (letter :: rest) then multiBasic true (letter :: rest)
    else do
      let char ← unescape? letter
      let (more, left) ← multiBasic false rest
      return (char :: more, left)
  | trimming, '\r' :: '\n' :: rest =>
    if trimming then multiBasic true rest
    else do
      let (more, left) ← multiBasic false rest
      return ('\n' :: more, left)
  | trimming, c :: rest =>
    if trimming && (isBlank c || c = '\n') then multiBasic true rest
    else if isPlain c || c = '\n' then do
      let (more, left) ← multiBasic false rest
      return (c :: more, left)
    else none

/-- A literal string of several lines, from after its opening quotes. -/
def multiLiteral : List Char → Option (List Char × List Char)
  | [] => none
  | '\'' :: '\'' :: '\'' :: rest => some (surplus '\'' rest)
  | '\r' :: '\n' :: rest => do
    let (more, left) ← multiLiteral rest
    return ('\n' :: more, left)
  | c :: rest =>
    if isPlain c || c = '\n' then do
      let (more, left) ← multiLiteral rest
      return (c :: more, left)
    else none

/-- A line break right after the opening quotes is not part of the string. -/
def dropNewline (cs : List Char) : List Char := (newline? cs).getD cs

/-- The content of a string, as text. -/
def asText (read : Option (List Char × List Char)) : Option (String × List Char) :=
  read.map fun content => (String.ofList content.1, content.2)

/-- A string of any kind. -/
def text? : List Char → Option (String × List Char)
  | '"' :: '"' :: '"' :: rest => asText (multiBasic false (dropNewline rest))
  | '"' :: rest => asText (basic rest)
  | '\'' :: '\'' :: '\'' :: rest => asText (multiLiteral (dropNewline rest))
  | '\'' :: rest => asText (literal rest)
  | _ => none

/-! ## Names -/

/-- One part of a name: bare, or a string of one line. -/
def namePart? (cs : List Char) : Option (String × List Char) :=
  match cs with
  | '"' :: rest => asText (basic rest)
  | '\'' :: rest => asText (literal rest)
  | _ =>
    match cs.takeWhile isBare with
    | [] => none
    | bare => some (String.ofList bare, cs.dropWhile isBare)

/-- The parts of a dotted name, with blanks around each, at most `fuel` of them. -/
def nameParts? : (fuel : Nat) → List Char → Option (List String × List Char)
  | 0, _ => none
  | fuel + 1, cs => do
    let (part, rest) ← namePart? (skipBlanks cs)
    match skipBlanks rest with
    | '.' :: rest => do
      let (parts, rest) ← nameParts? fuel rest
      return (part :: parts, rest)
    | rest => return ([part], rest)

/-- The number of parts that no name has. -/
def tooManyParts : Nat := 80

/-- A name: the parts before the last one, and the last one. -/
def name? (cs : List Char) : Option ((List String × String) × List Char) := do
  let (parts, rest) ← nameParts? tooManyParts cs
  if parts.length < tooManyParts then
    let last ← parts.getLast?
    return ((parts.dropLast, last), rest)
  else none

end CheckIn.Toml
