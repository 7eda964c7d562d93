/-
# Values that do not fit

The agent reads two data formats into the same domain types, and a value of the wrong kind is
reported in the same words by both.  A `Mismatch` is the reason, as data: what was found, and
what would have been accepted.
-/
import CheckIn.Number.Notation
import CheckIn.Text.Quoted

namespace CheckIn

/-- What was found where another kind of value belongs. -/
inductive Found
  | null
  | boolean (value : Bool)
  | integer (value : Int)
  | real (value : Binary64)
  | text (value : String)
  | sequence
  | map
deriving DecidableEq, Repr

/-- Why a well-formed value is refused. -/
inductive Mismatch
  /-- A value of another kind. -/
  | wrongType (found : Found) (wanted : String)
  /-- A value of the right kind, but out of range. -/
  | wrongValue (found : Found) (wanted : String)
  /-- A sequence with the wrong number of items. -/
  | wrongLength (count : Nat) (wanted : String)
  /-- A name that is none of the known ones. -/
  | unknownVariant (name : String) (known : List String)
  /-- A field that is given twice. -/
  | duplicateField (name : String)
  /-- A field that has to be given. -/
  | missingField (name : String)
deriving DecidableEq, Repr

namespace Found

/-- How messages name what was found; `style` is how they write doubles. -/
def describe (style : NumberStyle) : Found → String
  | null => "null"
  | boolean value => "boolean `" ++ (if value then "true" else "false") ++ "`"
  | integer value => "integer `" ++ decimalInt value ++ "`"
  | real value => "floating point `" ++ style.write value ++ "`"
  | text value => "string " ++ quoted value
  | sequence => "sequence"
  | map => "map"

end Found

namespace Mismatch

/-- The known names of a variant: `one of` them if there are more than two. -/
def oneOf (known : List String) : String :=
  let marked := known.map fun name => "`" ++ name ++ "`"
  match marked with
  | [] => "there are no variants"
  | [a] => "expected " ++ a
  | [a, b] => "expected " ++ a ++ " or " ++ b
  | names => "expected one of " ++ ", ".intercalate names

/-- The message of a mismatch; `style` is how it writes doubles. -/
def message (style : NumberStyle) : Mismatch → String
  | wrongType found wanted =>
    "invalid type: " ++ found.describe style ++ ", expected " ++ wanted
  | wrongValue found wanted =>
    "invalid value: " ++ found.describe style ++ ", expected " ++ wanted
  | wrongLength count wanted =>
    "invalid length " ++ decimalNat count ++ ", expected " ++ wanted
  | unknownVariant name known => "unknown variant `" ++ name ++ "`, " ++ oneOf known
  | duplicateField name => "duplicate field `" ++ name ++ "`"
  | missingField name => "missing field `" ++ name ++ "`"

end Mismatch

end CheckIn
