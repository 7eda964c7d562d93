/-
# Writing JSON values

Values are written without blanks.  Doubles always show a point or an exponent, so that they
read back as doubles.
-/
import CheckIn.Json.Text
import CheckIn.Json.Value
import CheckIn.Number.Notation

namespace CheckIn.Json

/-- A number. -/
def Number.write : Number → List Char
  | whole value _ => (decimalInt value).toList
  | real value => (NumberStyle.json.write value).toList

/-- A truth value. -/
def writeBoolean (value : Bool) : List Char := (if value then "true" else "false").toList

/-- Written items with commas between them. -/
def separated : List (List Char) → List Char
  | [] => []
  | [item] => item
  | item :: rest => item ++ ',' :: separated rest

/-- Written values as a list. -/
def writeList (items : List (List Char)) : List Char := '[' :: (separated items ++ [']'])

/-- A name and a written value. -/
def writeField (name : String) (written : List Char) : List Char :=
  Text.write name ++ ':' :: written

/-- Written fields as an object. -/
def writeObject (fields : List (String × List Char)) : List Char :=
  '\x7b' :: (separated (fields.map fun field => writeField field.1 field.2) ++ ['\x7d'])

mutual

/-- A value. -/
def Value.write : Value → List Char
  | .null => "null".toList
  | .boolean value => writeBoolean value
  | .number value => value.write
  | .text value => Text.write value
  | .array items => writeList (Value.writeItems items)
  | .object fields => writeObject (Value.writeFields fields)

/-- The values of a list, each written on its own. -/
def Value.writeItems : List Value → List (List Char)
  | [] => []
  | item :: rest => item.write :: Value.writeItems rest

/-- The values of named fields, each written on its own. -/
def Value.writeFields : List (String × Value) → List (String × List Char)
  | [] => []
  | (name, value) :: rest => (name, value.write) :: Value.writeFields rest

end

end CheckIn.Json
