/-
# TOML values

What a TOML document says, as data.  A table remembers how it came to be, because that decides
whether later lines of the document may still add to it.
-/
import CheckIn.Number.Binary64

namespace CheckIn.Toml

/-- How a table came to be. -/
inductive Origin
  /-- By its own header, or as the document itself. -/
  | header
  /-- By the header of a table inside of it. -/
  | implied
  /-- By a dotted name in front of a value. -/
  | dotted
  /-- As a value in braces. -/
  | inline
deriving DecidableEq, Repr

/-- A TOML value. -/
inductive Value
  | text (content : String)
  | integer (value : Int64)
  | real (value : Binary64)
  | boolean (value : Bool)
  /-- A date, a time, or both. -/
  | moment
  | array (items : List Value)
  | table (origin : Origin) (entries : List (String × Value))
  /-- Tables that are collected under one name, one header for each. -/
  | tables (elements : List Value)
deriving Repr, Inhabited

/-- The entries of a table, in the order in which they were added. -/
abbrev Entries := List (String × Value)

namespace Entries

/-- The value under a name. -/
def find? (entries : Entries) (name : String) : Option Value :=
  (List.find? (fun entry => entry.1 = name) entries).map Prod.snd

/-- The entries with another value under a name that is there. -/
def replace (entries : Entries) (name : String) (value : Value) : Entries :=
  entries.map fun entry => if entry.1 = name then (name, value) else entry

/-- The entries without those of a name. -/
def erase (entries : Entries) (name : String) : Entries :=
  entries.filter fun entry => entry.1 ≠ name

/-- The entries with a new one at the end; nothing if the name is taken. -/
def add (entries : Entries) (name : String) (value : Value) : Option Entries :=
  match entries.find? name with
  | some _ => none
  | none => some (entries ++ [(name, value)])

end Entries

end CheckIn.Toml
