/-
# A tree of files

The configuration is loaded from and saved to a file system, of which this is the part that the
agent can observe: which paths lead to a file or a directory, and the bytes of the files.  There
are no links and no permissions, and a whole path may be of any length.  Paths are followed from
the root down, so that the empty path is the root itself.
-/
import CheckIn.Text.Utf8

namespace CheckIn

/-- Why the file system refuses an operation. -/
inductive FileFault
  | notFound
  | alreadyThere
  | notADirectory
  | isADirectory
  | nameTooLong
  /-- A name contains the zero character. -/
  | zeroInName
deriving DecidableEq, Repr

def FileFault.message : FileFault → String
  | notFound => "No such file or directory (os error 2)"
  | alreadyThere => "File exists (os error 17)"
  | notADirectory => "Not a directory (os error 20)"
  | isADirectory => "Is a directory (os error 21)"
  | nameTooLong => "File name too long (os error 36)"
  | zeroInName => "file name contained an unexpected NUL byte"

/-- What a path leads to. -/
inductive FileNode
  | directory
  | file (content : List UInt8)
deriving DecidableEq, Repr

/-- The place of a file or directory: the names from the root down. -/
abbrev Place := List String

/-- A tree of files below a root directory. -/
structure FileSystem where
  /-- The places below the root with what is there. -/
  nodes : List (Place × FileNode) := []
deriving Repr, Inhabited

namespace FileSystem

/-- What is at a place; the root is a directory. -/
def node? (files : FileSystem) (place : Place) : Option FileNode :=
  if place = [] then some .directory
  else (files.nodes.find? fun node => node.1 = place).map Prod.snd

/-- Puts a node at a place, instead of what is there. -/
def put (files : FileSystem) (place : Place) (node : FileNode) : FileSystem :=
  ⟨(place, node) :: files.nodes.filter fun other => other.1 ≠ place⟩

/-- What was put at a place is there, and all else is as before. -/
theorem node?_put (files : FileSystem) (place other : Place) (node : FileNode)
    (h : place ≠ []) :
    (files.put place node).node? other = if other = place then some node else files.node? other := by
  unfold node? put
  by_cases ho : other = []
  · have : other ≠ place := fun e => h (e ▸ ho)
    simp [ho, Ne.symm h]
  · by_cases hp : other = place
    · subst hp
      simp [ho]
    · have hp' : ¬ place = other := fun e => hp e.symm
      simp only [ho, if_false, List.find?_cons, hp', decide_false, hp, List.find?_filter]
      congr 2
      funext node
      by_cases hn : node.1 = other
      · simp [hn, hp]
      · simp [hn]

/-! ## Paths -/

/-- The longest name of a file, in bytes. -/
def longestName : Nat := 255

/-- The parts of a path. -/
def parts (path : String) : List String :=
  (path.toList.splitOn '/').map String.ofList

/-- A name that stays where it is: what stands between two slashes, and a single dot. -/
def isStay (part : String) : Bool := part = "" || part = "."

/-- Goes from a place along one part of a path. -/
def step (files : FileSystem) (place : Place) (part : String) : Except FileFault Place :=
  match files.node? place with
  | none => .error .notFound
  | some (.file _) => .error .notADirectory
  | some .directory =>
    if isStay part then .ok place
    else if part = ".." then .ok place.dropLast
    else if longestName < part.utf8ByteSize then .error .nameTooLong
    else
      match files.node? (place ++ [part]) with
      | some _ => .ok (place ++ [part])
      | none => .error .notFound

/-- The place to which the parts of a path lead. -/
def locate (files : FileSystem) (parts : List String) : Except FileFault Place :=
  if parts.any fun part => part.toList.contains '\x00' then .error .zeroInName
  else parts.foldlM files.step []

/-- The file system that holds what is at a path, and the directories on the way, and no more. -/
def holding (path : String) (node : FileNode) : FileSystem :=
  let enter : FileSystem × Place → String → FileSystem × Place
    | (files, place), part =>
      if isStay part then (files, place)
      else if part = ".." then (files, place.dropLast)
      else (files.put (place ++ [part]) .directory, place ++ [part])
  let (files, place) := (parts path).foldl enter ({}, [])
  files.put place node

/-- Whether a path leads anywhere. -/
def isThere (files : FileSystem) (path : String) : Bool :=
  match files.locate (parts path) with
  | .ok _ => true
  | .error _ => false

/-- Whether parts of a path lead to a directory. -/
def isDirectory (files : FileSystem) (parts : List String) : Bool :=
  match files.locate parts with
  | .ok place => files.node? place = some .directory
  | .error _ => false

/-! ## Operations -/

/-- The bytes of the file at a path. -/
def read (files : FileSystem) (path : String) : Except FileFault (List UInt8) := do
  let place ← files.locate (parts path)
  match files.node? place with
  | some (.file content) => return content
  | some .directory => throw .isADirectory
  | none => throw .notFound

/-- The place of a new name in an existing directory. -/
def newPlace (files : FileSystem) (directory : List String) (name : String) :
    Except FileFault Place := do
  let place ← files.locate directory
  if name.toList.contains '\x00' then throw .zeroInName
  if files.node? place ≠ some .directory then throw .notADirectory
  if longestName < name.utf8ByteSize then throw .nameTooLong
  return place ++ [name]

/-- Writes a file, a new one or over an old one.  A path that ends with a slash can only lead to
a directory. -/
def write (files : FileSystem) (path : String) (content : List UInt8) :
    Except FileFault FileSystem := do
  let parts := parts path
  let named := (parts.reverse.dropWhile (· = "")).reverse
  let name := named.getLast?.getD "."
  if name = "." ∨ name = ".." then
    let _ ← files.locate named
    throw .isADirectory
  else
    let place ← files.newPlace named.dropLast name
    if parts.getLast? = some "" ∨ files.node? place = some .directory then throw .isADirectory
    return files.put place (.file content)

/-- Makes a directory where nothing is yet. -/
def makeDirectory (files : FileSystem) (directory : List String) (name : String) :
    Except FileFault FileSystem :=
  if name = ".." then do
    let _ ← files.locate directory
    throw .alreadyThere
  else do
    let place ← files.newPlace directory name
    match files.node? place with
    | some _ => throw .alreadyThere
    | none => return files.put place .directory

/-- Makes a directory and all that are missing on the way to it.  The parts of the path are given
from the last to the first.  What was made stays, also if a later step fails. -/
def makeAll (files : FileSystem) : List String → Except FileFault Unit × FileSystem
  | [] => (.ok (), files)
  | name :: above =>
    let finish (files : FileSystem) : Except FileFault Unit × FileSystem :=
      match files.makeDirectory above.reverse name with
      | .ok made => (.ok (), made)
      | .error fault =>
        if files.isDirectory (above.reverse ++ [name]) then (.ok (), files)
        else (.error fault, files)
    match files.makeDirectory above.reverse name with
    | .error .notFound =>
      match makeAll files above with
      | (.ok (), files) => finish files
      | failed => failed
    | _ => finish files

/-- Makes the directory of a path and all that are missing on the way to it. -/
def makeDirectories (files : FileSystem) (path : List String) :
    Except FileFault Unit × FileSystem :=
  files.makeAll (path.filter (!isStay ·)).reverse

end FileSystem

end CheckIn
