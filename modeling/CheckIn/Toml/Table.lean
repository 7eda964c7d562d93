/-
# Building tables

A document adds to its tables in three ways: by a header, by a header of a table in a list, and
by a name with a value.  Nothing may be defined twice, a table with a header of its own may not
be extended by dotted names, and a table in braces is complete.  Each addition is an operation
that fails if one of these rules is broken.
-/
import CheckIn.Toml.Value

namespace CheckIn.Toml

/-- Changes the table that a path leads to.  Missing tables on the way are created, as `dotted`
or `implied` ones; in a list of tables the way leads through the last one. -/
def descend (dotted : Bool) (change : Origin → Entries → Option Entries) :
    (path : List String) → Origin → Entries → Option Entries
  | [], origin, entries => change origin entries
  | name :: path, _, entries =>
    match entries.find? name with
    | none => do
      let origin : Origin := if dotted then .dotted else .implied
      let inner ← descend dotted change path origin []
      return entries ++ [(name, .table origin inner)]
    | some (.table origin inner) =>
      if origin = .inline ∨ (dotted ∧ origin = .header) then none
      else do
        let inner ← descend dotted change path origin inner
        return entries.replace name (.table origin inner)
    | some (.tables elements) =>
      match elements.getLast? with
      | some (.table origin inner) => do
        let inner ← descend dotted change path origin inner
        return entries.replace name (.tables (elements.dropLast ++ [.table origin inner]))
      | _ => none
    | some _ => none

/-- A name with a value, in front of which other names may stand, separated by dots. -/
structure Entry where
  /-- The names of the tables that lead to the value. -/
  path : List String
  name : String
  value : Value
deriving Repr, Inhabited

/-- Adds an entry to a table.  Only a table that dotted names made is extended by them. -/
def Entry.addTo (entry : Entry) (origin : Origin) (entries : Entries) : Option Entries :=
  descend true (fun origin entries =>
    if (origin = .dotted) ↔ entry.path = [] then none
    else entries.add entry.name entry.value) entry.path origin entries

/-- The table in braces with the given entries. -/
def inlineTable (content : List Entry) : Option Value := do
  let entries ← content.foldlM (fun entries entry => entry.addTo .inline entries) []
  return .table .inline entries

/-- Begins the table of a header.  A table that so far was only implied now has its header, and
moves to the end. -/
def openTable (name : String) (entries : Entries) : Option Entries :=
  match entries.find? name with
  | none => some (entries ++ [(name, .table .header [])])
  | some (.table .implied inner) => some (entries.erase name ++ [(name, .table .header inner)])
  | some _ => none

/-- Begins another table of a list of tables. -/
def openElement (name : String) (entries : Entries) : Option Entries :=
  match entries.find? name with
  | none => some (entries ++ [(name, .tables [.table .header []])])
  | some (.tables elements) =>
    some (entries.replace name (.tables (elements ++ [.table .header []])))
  | some _ => none

/-- What one line of a document says. -/
inductive Statement
  /-- A header: the entries that follow belong to this table. -/
  | header (path : List String) (name : String)
  /-- A header of one table in a list. -/
  | element (path : List String) (name : String)
  | entry (entry : Entry)
deriving Repr, Inhabited

/-- A document as far as it has been read. -/
structure Document where
  /-- The entries of the document itself. -/
  entries : Entries := []
  /-- The path to the table to which the next entry belongs. -/
  here : List String := []
deriving Repr, Inhabited

namespace Document

/-- Adds what a line says. -/
def add (document : Document) : Statement → Option Document
  | .header path name => do
    let entries ← descend false (fun _ => openTable name) path .header document.entries
    return ⟨entries, path ++ [name]⟩
  | .element path name => do
    let entries ← descend false (fun _ => openElement name) path .header document.entries
    return ⟨entries, path ++ [name]⟩
  | .entry entry => do
    let entries ← descend false entry.addTo document.here .header document.entries
    return { document with entries }

/-- The document that lines make. -/
def ofStatements (statements : List Statement) : Option Document :=
  statements.foldlM add {}

end Document

end CheckIn.Toml
