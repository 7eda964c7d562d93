/-
# Container platforms

The agent tells the controller which container platform it runs on, as a number.  The controller
takes everything that is not Docker for Kubernetes, so an agent on Podman presents itself as one
on Docker.
-/
import CheckIn.Json.Reader
import CheckIn.Json.Writer

namespace CheckIn
open Json

/-- The container platform that an agent runs on. -/
inductive Platform
  | docker
  | kubernetes
  | podman
deriving DecidableEq, Repr

namespace Platform

instance : Inhabited Platform := ⟨docker⟩

/-- The number by which the controller knows a platform. -/
def wireValue : Platform → Nat
  | docker => 1
  | kubernetes => 2
  | podman => 3

/-- The platform as which an agent presents itself. -/
def canonical : Platform → Platform
  | docker => docker
  | kubernetes => kubernetes
  | podman => docker

/-- The name of a platform in configurations. -/
def name : Platform → String
  | docker => "docker"
  | kubernetes => "kubernetes"
  | podman => "podman"

/-- All names, in the order in which messages list them. -/
def names : List String := ["docker", "kubernetes", "podman"]

/-- The platform of a name. -/
def ofName? (name : String) : Option Platform :=
  if name = "docker" then some docker
  else if name = "kubernetes" then some kubernetes
  else if name = "podman" then some podman
  else none

/-- Every platform is found by its name. -/
@[simp] theorem ofName?_name (platform : Platform) : ofName? platform.name = some platform := by
  cases platform <;> simp [ofName?, name]

/-- The platform of a name that has to be known. -/
def ofKnownName (name : String) : Except Mismatch Platform :=
  match ofName? name with
  | some platform => .ok platform
  | none => .error (.unknownVariant name names)

/-- The platform of a name that was read. -/
def known (name : String) : Reader Platform :=
  match ofKnownName name with
  | .ok platform => return platform
  | .error mismatch => refuse mismatch

/-- Takes the closing brace of an object with a single field. -/
def closeSingle : Reader Unit := fun bytes =>
  match Byte.skipBlanks bytes with
  | [] => .error (.truncated .object)
  | Byte.closeBrace :: rest => .ok ((), rest)
  | _ => .error (.flawed .expectedValue)

/-- Reads a platform: its name, or an object whose only field has that name and the value
`null`. -/
def read (room : Nat) : Reader Platform := fun bytes =>
  match Byte.skipBlanks bytes with
  | [] => .error (.truncated .value)
  | Byte.quote :: rest => do
    let (name, rest) ← Text.read rest
    known name rest
  | Byte.openBrace :: rest =>
    match room with
    | 0 => .error (.flawed .nestingLimit)
    | _ + 1 => do
      let (name, rest) ← text "variant identifier" rest
      let (platform, rest) ← known name rest
      let ((), rest) ← separator rest
      let ((), rest) ← nothing rest
      let ((), rest) ← closeSingle rest
      return (platform, rest)
  | _ => .error (.flawed .expectedValue)

/-- Writes the name of a platform. -/
def write (platform : Platform) : List Char := Text.write platform.name

end Platform

end CheckIn
