/-
# Addresses of the controller

Before a request is sent its address is checked: it has to be an `http` or `https` address with a
host, as browsers read addresses.  Blanks at the ends and line breaks are ignored, slashes and
backslashes mean the same, and the host is a name, four numbers or an address in brackets.
-/
import CheckIn.Text.Utf8

namespace CheckIn.Url

/-! ## Hosts -/

/-- A digit of a base, as its value. -/
def digitIn? (base : Nat) (c : Char) : Option Nat :=
  let n := c.toNat
  let value? :=
    if 0x30 ≤ n ∧ n ≤ 0x39 then some (n - 0x30)
    else if 0x41 ≤ n ∧ n ≤ 0x46 then some (n - 0x37)
    else if 0x61 ≤ n ∧ n ≤ 0x66 then some (n - 0x57)
    else none
  value?.filter fun value => decide (value < base)

/-- A number in a base; the empty one is zero. -/
def numberIn? (base : Nat) (digits : List Char) : Option Nat :=
  digits.foldlM (fun value c => (digitIn? base c).map (value * base + ·)) 0

/-- A part of an address of four numbers: decimal, octal after `0`, hexadecimal after `0x`. -/
def addressPart? : List Char → Option Nat
  | [] => none
  | '0' :: 'x' :: digits => numberIn? 16 digits
  | '0' :: 'X' :: digits => numberIn? 16 digits
  | '0' :: digit :: digits => numberIn? 8 (digit :: digits)
  | digits => numberIn? 10 digits

/-- The parts of a host between its dots, without an empty one at the end. -/
def labels (host : List Char) : List (List Char) :=
  let parts := host.splitOn '.'
  match parts.reverse with
  | [] :: last :: rest => (last :: rest).reverse
  | _ => parts

/-- Whether a host is meant as an address of numbers, because its last part is a number. -/
def endsInNumber (host : List Char) : Bool :=
  match (labels host).getLast? with
  | none => false
  | some last =>
    (!last.isEmpty && last.all Char.isDigit) ||
      (match last with
        | '0' :: 'x' :: _ | '0' :: 'X' :: _ => (addressPart? last).isSome
        | _ => false)

/-- Whether a host is an address of at most four numbers. -/
def isAddress (host : List Char) : Bool :=
  match (labels host).mapM addressPart? with
  | none => false
  | some numbers =>
    decide (numbers.length ≤ 4) && numbers.dropLast.all (fun n => decide (n < 256)) &&
      decide (numbers.getLast?.getD 0 < Nat.pow 256 (5 - numbers.length))

/-- Whether characters are four decimal numbers below 256, with dots between them. -/
def isDottedQuad (cs : List Char) : Bool :=
  let parts := cs.splitOn '.'
  decide (parts.length = 4) && parts.all fun part =>
    !part.isEmpty && part.all Char.isDigit && (part.length = 1 || part.head? ≠ some '0') &&
      (match numberIn? 10 part with
        | some value => decide (value < 256)
        | none => false)

/-- How many groups of sixteen bits the parts between colons make, if all are well formed. -/
def groupCount? (parts : List (List Char)) : Option Nat :=
  let isGroup (part : List Char) : Bool :=
    !part.isEmpty && decide (part.length ≤ 4) && (numberIn? 16 part).isSome
  match parts.reverse with
  | [] => some 0
  | last :: above =>
    if above.all isGroup then
      if isGroup last then some parts.length
      else if isDottedQuad last then some (parts.length + 1)
      else none
    else none

/-- The parts before and after the first `::`, if there is one. -/
def splitGap? : List Char → Option (List Char × List Char)
  | ':' :: ':' :: rest => some ([], rest)
  | c :: rest => (splitGap? rest).map fun halves => (c :: halves.1, halves.2)
  | [] => none

/-- The groups between colons; nothing has none. -/
def groups (cs : List Char) : List (List Char) := if cs.isEmpty then [] else cs.splitOn ':'

/-- Whether characters are an address of eight groups, of which a run may be left out. -/
def isLongAddress (cs : List Char) : Bool :=
  match splitGap? cs with
  | none => groupCount? (groups cs) = some 8
  | some (before, after) =>
    match groupCount? (groups before), groupCount? (groups after) with
    | some m, some n =>
      decide (m + n < 8) && (groups before).all fun part => !part.contains '.'
    | _, _ => false

/-- What a percent sign and two digits stand for; anything else stands for itself. -/
def percentDecode : List UInt8 → List UInt8
  | 0x25 :: a :: b :: rest =>
    match digitIn? 16 (Char.ofNat a.toNat), digitIn? 16 (Char.ofNat b.toNat) with
    | some x, some y => UInt8.ofNat (16 * x + y) :: percentDecode rest
    | _, _ => 0x25 :: percentDecode (a :: b :: rest)
  | byte :: rest => byte :: percentDecode rest
  | [] => []

/-- Characters that no name of a host has. -/
def isForbidden (c : Char) : Bool :=
  decide (c.toNat ≤ 0x20) || c = '\x7f' || " #/:<>?@[\\]^|%".toList.contains c

/-- Whether characters are a host. -/
def isHost (cs : List Char) : Bool :=
  match cs with
  | '[' :: rest => rest.getLast? = some ']' && isLongAddress rest.dropLast
  | _ =>
    match ofUtf8? (percentDecode (utf8 (String.ofList cs))) with
    | none => false
    | some name =>
      let name := name.toList
      !name.isEmpty && !name.any isForbidden && (!endsInNumber name || isAddress name)

/-! ## Addresses -/

/-- Whether characters after a host are a port, or nothing. -/
def isPort (cs : List Char) : Bool :=
  match cs with
  | [] => true
  | ':' :: digits =>
    digits.all Char.isDigit &&
      (match numberIn? 10 digits with
        | some port => decide (port < 0x10000)
        | none => false)
  | _ => false

/-- The host at the beginning, and what follows it. -/
def splitHost (cs : List Char) : List Char × List Char :=
  match cs with
  | '[' :: _ =>
    match cs.dropWhile (· ≠ ']') with
    | close :: rest => (cs.takeWhile (· ≠ ']') ++ [close], rest)
    | [] => (cs, [])
  | _ => (cs.takeWhile (· ≠ ':'), cs.dropWhile (· ≠ ':'))

/-- What follows the last `@`, or everything. -/
def afterUser (cs : List Char) : List Char := (cs.reverse.takeWhile (· ≠ '@')).reverse

def isSlash (c : Char) : Bool := c = '/' || c = '\\'

/-- The part of an address between the slashes at its beginning and its path. -/
def authority (cs : List Char) : List Char :=
  (cs.dropWhile isSlash).takeWhile fun c => !isSlash c && c ≠ '?' && c ≠ '#'

/-- Whether an authority has a host and a port. -/
def isAuthority (cs : List Char) : Bool :=
  let (host, port) := splitHost (afterUser cs)
  isHost host && isPort port

/-- The scheme of an address in lower case, and what follows its colon. -/
def scheme? (cs : List Char) : Option (String × List Char) :=
  let isSchemeChar (c : Char) : Bool := c.isAlphanum || c = '+' || c = '-' || c = '.'
  let scheme := cs.takeWhile isSchemeChar
  match scheme, cs.dropWhile isSchemeChar with
  | first :: _, ':' :: rest =>
    if first.isAlpha then some (String.ofList (scheme.map Char.toLower), rest) else none
  | _, _ => none

/-- An address without blanks at the ends and without tabs and line breaks. -/
def cleaned (url : String) : List Char :=
  let isBlank (c : Char) : Bool := decide (c.toNat ≤ 0x20)
  let trimmed := ((url.toList.dropWhile isBlank).reverse.dropWhile isBlank).reverse
  trimmed.filter fun c => c ≠ '\t' && c ≠ '\n' && c ≠ '\r'

/-- Whether a request can be sent to an address. -/
def isRequestable (url : String) : Bool :=
  match scheme? (cleaned url) with
  | some (scheme, rest) =>
    (scheme = "http" || scheme = "https") && isAuthority (authority rest)
  | none => false

end CheckIn.Url
