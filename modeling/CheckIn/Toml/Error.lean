/-
# Faults of a TOML document

A document is refused because it is none, or because an entry does not fit.  A choice among
names can be written as a string or as a table with a single entry, and has faults of its own.
-/
import CheckIn.Mismatch
import CheckIn.Toml.Value

namespace CheckIn.Toml

/-- How the writing of a choice among names is wrong. -/
inductive ChoiceFault
  /-- It is neither a string nor a table. -/
  | neitherTextNorTable
  | noEntry
  | severalEntries
  /-- The name is given something to say more. -/
  | tableNotEmpty
  | listNotEmpty
  /-- The name is given a value of this kind, not an empty table. -/
  | notATable (kind : String)
deriving DecidableEq, Repr

/-- Why a TOML text is refused. -/
inductive Error
  /-- It is no TOML document. -/
  | malformed
  | mismatched (mismatch : Mismatch)
  | choice (fault : ChoiceFault)
deriving DecidableEq, Repr

def ChoiceFault.message : ChoiceFault → String
  | neitherTextNorTable => "wanted string or table"
  | noEntry => "wanted exactly 1 element, found 0 elements"
  | severalEntries => "wanted exactly 1 element, more than 1 element"
  | tableNotEmpty => "expected empty table"
  | listNotEmpty => "expected empty array"
  | notATable kind => "expected table, found " ++ kind

/-- The message of an error. -/
def Error.message : Error → String
  | malformed => "not a TOML document"
  | mismatched mismatch => mismatch.message NumberStyle.pointed
  | choice fault => fault.message

/-- How messages show a value of the wrong kind.  A moment counts as a table of its parts. -/
def Value.found : Value → Found
  | text content => .text content
  | integer value => .integer value.toInt
  | real value => .real value
  | boolean value => .boolean value
  | moment => .map
  | array _ => .sequence
  | table _ _ => .map
  | tables _ => .sequence

/-- Refuses a value because another kind is wanted. -/
def misfit {α : Type} (value : Value) (wanted : String) : Except Error α :=
  .error (.mismatched (.wrongType value.found wanted))

end CheckIn.Toml
