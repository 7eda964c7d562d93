/-
# JSON values

A schedule carries fields that only the scheduler understands, so they are kept as plain JSON
values.  Whole numbers from `-2 ^ 63` to `2 ^ 64 - 1` are kept exactly and all others as
doubles; the fields of an object are kept in the order of their names, each name once.
-/
import CheckIn.Number.Binary64

namespace CheckIn.Json

/-- A number, as it is kept. -/
inductive Number
  /-- A whole number of at most 64 bits, signed or not. -/
  | whole (value : Int) (bounds : -0x8000000000000000 ≤ value ∧ value < 0x10000000000000000)
  /-- Any other number, and the negative zero. -/
  | real (value : Binary64)
deriving DecidableEq, Repr

/-- A JSON value. -/
inductive Value
  | null
  | boolean (value : Bool)
  | number (value : Number)
  | text (value : String)
  | array (items : List Value)
  | object (fields : List (String × Value))
deriving Repr, Inhabited

namespace Number

/-- A natural number of 64 bits. -/
def ofUInt64 (n : UInt64) : Number := whole n.toNat (by have := n.toNat_lt; omega)

/-- The number as a double, rounded if need be. -/
def toBinary64 : Number → Binary64
  | whole value _ =>
    if value < 0 then (Binary64.ofNat value.natAbs).neg else Binary64.ofNat value.natAbs
  | real value => value

end Number

/-- Puts a field into a list of fields that is in the order of the names, in place of an earlier
field of the same name. -/
def insertField {α : Type} (name : String) (value : α) :
    List (String × α) → List (String × α)
  | [] => [(name, value)]
  | (other, kept) :: rest =>
    if name < other then (name, value) :: (other, kept) :: rest
    else if name = other then (name, value) :: rest
    else (other, kept) :: insertField name value rest

/-- The fields in the order of their names; of fields with one name the last is kept. -/
def sortFields {α : Type} (fields : List (String × α)) : List (String × α) :=
  fields.foldl (fun sorted field => insertField field.1 field.2 sorted) []

end CheckIn.Json
