/-
# Reading records

A record is written as an object, with its fields in any order, or as a list of its values in
the order in which the fields are declared.  Either way a draft is filled in step by step.  A
field that is given twice is refused, a field that nobody knows is passed over.
-/
import CheckIn.Json.Reader

namespace CheckIn.Json
open Byte

/-- A field of a record that is read into a draft. -/
structure Field (δ : Type) where
  /-- The name in an object. -/
  name : String
  /-- Whether the draft has the field already. -/
  isGiven : δ → Bool
  /-- Reads the value into the draft, in the given room. -/
  read : (room : Nat) → δ → Reader δ

/-- A field whose place in the draft is optional. -/
def Field.of {δ α : Type} (name : String) (get : δ → Option α) (set : α → δ → δ)
    (read : (room : Nat) → Reader α) : Field δ where
  name
  isGiven draft := (get draft).isSome
  read room draft := do return set (← read room) draft

/-- What a record has: its fields in the order of declaration. -/
structure Record (δ : Type) where
  /-- How messages call it. -/
  wanted : String
  fields : List (Field δ)
  /-- Whether a list has to give all fields. -/
  allInList : Bool

namespace Record

variable {δ : Type}

/-- Reads the field of a name into the draft, or passes over it; the separator is still to be
taken. -/
def field (record : Record δ) (room : Nat) (name : String) (draft : δ) : Reader δ :=
  match record.fields.find? fun field => field.name = name with
  | some field =>
    if field.isGiven draft then refuse (.duplicateField name)
    else do
      separator
      field.read room draft
  | none => do
    separator
    skipValue
    return draft

/-- Reads the values of a list into the fields, of which `index` have been read. -/
def fromList (record : Record δ) (room : Nat) : (index : Nat) → List (Field δ) → δ → Reader δ
  | _, [], draft => return draft
  | index, field :: fields, draft => do
    if ← nextItem (index = 0) then
      let draft ← field.read room draft
      fromList record room (index + 1) fields draft
    else if record.allInList then
      refuse (.wrongLength index
        (record.wanted ++ " with " ++ decimalNat record.fields.length ++ " elements"))
    else return draft

/-- Fills in a draft from an object or a list. -/
def read (record : Record δ) (room : Nat) (empty : δ) : Reader δ := fun bytes =>
  match skipBlanks bytes with
  | openBracket :: rest =>
    match room with
    | 0 => .error (.flawed .nestingLimit)
    | room + 1 => do
      let (draft, rest) ← fromList record room 0 record.fields empty rest
      let ((), rest) ← closeList rest
      return (draft, rest)
  | openBrace :: rest =>
    match room with
    | 0 => .error (.flawed .nestingLimit)
    | room + 1 => object (record.field room) empty rest
  | bytes => misplaced record.wanted bytes

end Record

/-- The value of a field that has to be given. -/
def required {α : Type} (name : String) : Option α → Reader α
  | some value => return value
  | none => refuse (.missingField name)

end CheckIn.Json
