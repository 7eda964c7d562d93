/-
# Reading TOML documents

A document is read into statements, line by line, and the statements into tables.  A text that
is no document has no reading; why it is none is not recorded.
-/
import CheckIn.Toml.Number
import CheckIn.Toml.Table

namespace CheckIn.Toml

/-- How many arrays and tables in braces may be open at once. -/
def nestingRoom : Nat := 79

/-! ## Between the tokens -/

/-- What remains after blanks and a comment. -/
def skipComment (cs : List Char) : List Char :=
  match skipBlanks cs with
  | '#' :: rest => rest.dropWhile isPlain
  | rest => rest

/-- What remains after the end of a line, on which only a comment may stand. -/
def endLine? (cs : List Char) : Option (List Char) :=
  match skipComment cs with
  | [] => some []
  | rest => newline? rest

/-- What remains after blanks, line breaks and comments.  `comment` is set inside of one. -/
def skipLines : (comment : Bool) → List Char → List Char
  | _, [] => []
  | _, '\r' :: '\n' :: rest => skipLines false rest
  | comment, c :: rest =>
    if c = '\n' then skipLines false rest
    else if comment then if isPlain c then skipLines true rest else c :: rest
    else if isBlank c then skipLines false rest
    else if c = '#' then skipLines true rest
    else c :: rest

/-! ## Values -/

/-- What remains after a word. -/
def afterWord? (word cs : List Char) : Option (List Char) :=
  if word.isPrefixOf cs then some (cs.drop word.length) else none

/-- The items of an array and its closing bracket, at most `fuel` items. -/
def arrayItems (item : List Char → Option (Value × List Char)) :
    (fuel : Nat) → List Char → Option (List Value × List Char)
  | 0, _ => none
  | fuel + 1, cs =>
    match skipLines false cs with
    | ']' :: rest => some ([], rest)
    | cs => do
      let (head, rest) ← item cs
      match skipLines false rest with
      | ']' :: rest => return ([head], rest)
      | ',' :: rest =>
        let (tail, rest) ← arrayItems item fuel rest
        return (head :: tail, rest)
      | _ => none

/-- A name, an equals sign and a value. -/
def entry? (item : List Char → Option (Value × List Char)) (cs : List Char) :
    Option (Entry × List Char) := do
  let ((path, name), rest) ← name? cs
  match rest with
  | '=' :: rest =>
    let (value, rest) ← item (skipBlanks rest)
    return (⟨path, name, value⟩, rest)
  | _ => none

/-- The entries of a table in braces and its closing brace, at most `fuel` entries. -/
def inlineEntries (item : List Char → Option (Value × List Char)) :
    (fuel : Nat) → List Char → Option (List Entry × List Char)
  | 0, _ => none
  | fuel + 1, cs => do
    let (head, rest) ← entry? item cs
    match skipBlanks rest with
    | '\x7d' :: rest => return ([head], rest)
    | ',' :: rest =>
      let (tail, rest) ← inlineEntries item fuel rest
      return (head :: tail, rest)
    | _ => none

/-- A value; `room` is the number of containers that may still be opened.  Each item of a
container has at least one character, so the number of characters bounds the number of items. -/
def value? (room : Nat) (cs : List Char) : Option (Value × List Char) :=
  match cs with
  | [] => none
  | '"' :: _ => (text? cs).map fun read => (.text read.1, read.2)
  | '\'' :: _ => (text? cs).map fun read => (.text read.1, read.2)
  | '[' :: rest =>
    match room with
    | 0 => none
    | room + 1 => do
      let (items, rest) ← arrayItems (value? room) (rest.length + 1) rest
      return (.array items, rest)
  | '\x7b' :: rest =>
    match room with
    | 0 => none
    | room + 1 =>
      match skipBlanks rest with
      | '\x7d' :: rest => some (.table .inline [], rest)
      | rest => do
        let (content, rest) ← inlineEntries (value? room) (rest.length + 1) rest
        return (← inlineTable content, rest)
  | 't' :: rest => (afterWord? ['r', 'u', 'e'] rest).map fun rest => (.boolean true, rest)
  | 'f' :: rest => (afterWord? ['a', 'l', 's', 'e'] rest).map fun rest => (.boolean false, rest)
  | 'i' :: _ => special? false cs
  | 'n' :: _ => special? false cs
  | c :: _ => if c = '+' || c = '-' || c.isDigit then number? cs else none

/-! ## Lines -/

/-- The name in a header, between its brackets; `close` are the closing ones. -/
def headerName? (close : List Char) (cs : List Char) :
    Option ((List String × String) × List Char) := do
  let (name, rest) ← name? cs
  let rest ← afterWord? close rest
  return (name, ← endLine? rest)

/-- The next line that is not empty, if there is one. -/
def statement? (cs : List Char) : Option (Statement × List Char) :=
  match cs with
  | '[' :: '[' :: rest => do
    let ((path, name), rest) ← headerName? [']', ']'] rest
    return (.element path name, rest)
  | '[' :: rest => do
    let ((path, name), rest) ← headerName? [']'] rest
    return (.header path name, rest)
  | _ => do
    let (entry, rest) ← entry? (value? nestingRoom) cs
    return (.entry entry, ← endLine? rest)

/-- The statements of a document, at most `fuel` lines of it. -/
def statements? : (fuel : Nat) → List Char → Option (List Statement)
  | 0, _ => none
  | fuel + 1, cs =>
    match skipBlanks cs with
    | [] => some []
    | c :: rest =>
      if c = '#' || c = '\r' || c = '\n' then do statements? fuel (← endLine? (c :: rest))
      else do
        let (statement, rest) ← statement? (c :: rest)
        return statement :: (← statements? fuel rest)

/-- What remains after a byte order mark, if there is one. -/
def skipMark : List Char → List Char
  | '\ufeff' :: rest => rest
  | cs => cs

/-- The entries of the document that a text is, if it is one.  Each line has at least one
character, so the number of characters bounds the number of lines. -/
def document? (text : String) : Option Entries := do
  let cs := skipMark text.toList
  let statements ← statements? (cs.length + 1) cs
  let document ← Document.ofStatements statements
  return document.entries

end CheckIn.Toml
