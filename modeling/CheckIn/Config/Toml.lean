/-
# Configurations as TOML

A configuration file is a TOML document with one entry for each key.  Entries that nobody knows
are ignored and missing ones have their defaults.  Durations are whole seconds that fit into 63
bits, so that a longer one cannot be written.
-/
import CheckIn.Config.Basic
import CheckIn.Toml.Reader
import CheckIn.Toml.Writer

namespace CheckIn.Config

/-! ## Reading values -/

/-- A text. -/
def textOf (value : Toml.Value) : Except Toml.Error String :=
  match value with
  | .text content => .ok content
  | other => Toml.misfit other "a string"

/-- A truth value. -/
def booleanOf (value : Toml.Value) : Except Toml.Error Bool :=
  match value with
  | .boolean value => .ok value
  | other => Toml.misfit other "a boolean"

/-- A duration in whole seconds. -/
def durationOf (value : Toml.Value) : Except Toml.Error Duration :=
  match value with
  | .integer value =>
    if 0 ≤ value.toInt then .ok (.ofSeconds (UInt64.ofNat value.toInt.toNat))
    else .error (.mismatched (.wrongValue (.integer value.toInt) "u64"))
  | other => Toml.misfit other "u64"

/-- A platform by its name. -/
def platformNamed (name : String) : Except Toml.Error Platform :=
  (Platform.ofKnownName name).mapError .mismatched

/-- A chosen name that is written as the only entry of a table is given nothing more. -/
def nothingMore (value : Toml.Value) : Except Toml.Error Unit :=
  match value with
  | .tables [] | .array [] | .table _ [] => .ok ()
  | .tables _ => .error (.choice .listNotEmpty)
  | .array _ | .table _ _ => .error (.choice .tableNotEmpty)
  | .text _ => .error (.choice (.notATable "string"))
  | .integer _ => .error (.choice (.notATable "integer"))
  | .real _ => .error (.choice (.notATable "float"))
  | .boolean _ => .error (.choice (.notATable "boolean"))
  | .moment => .error (.choice (.notATable "datetime"))

/-- A platform: a string, or a table whose only entry has the name. -/
def platformOf (value : Toml.Value) : Except Toml.Error Platform :=
  match value with
  | .text name => platformNamed name
  | .table _ [] => .error (.choice .noEntry)
  | .table _ [(name, value)] => do
    let platform ← platformNamed name
    nothingMore value
    return platform
  | .table _ _ => .error (.choice .severalEntries)
  | _ => .error (.choice .neitherTextNorTable)

/-! ## Reading documents -/

/-- The draft with the entry of a key. -/
def Draft.set (draft : Draft) (key : Key) (value : Toml.Value) : Except Toml.Error Draft := do
  match key with
  | .apiServerAddr => return { draft with apiServerAddr := some (← textOf value) }
  | .edgeId => return { draft with edgeId := some ⟨← textOf value⟩ }
  | .endpointId => return { draft with endpointId := some (← textOf value) }
  | .controllerUrl => return { draft with controllerUrl := some (← textOf value) }
  | .pollFrequency => return { draft with pollFrequency := some (← durationOf value) }
  | .inactivityTimeout => return { draft with inactivityTimeout := some (← durationOf value) }
  | .insecurePoll => return { draft with insecurePoll := some (← booleanOf value) }
  | .tunnelCapability => return { draft with tunnelCapability := some (← booleanOf value) }
  | .tunnelServerAddr => return { draft with tunnelServerAddr := some (← textOf value) }
  | .tunnelServerFingerprint =>
    return { draft with tunnelServerFingerprint := some (← textOf value) }
  | .platform => return { draft with platform := some (← platformOf value) }

/-- The draft with an entry, if its name is known. -/
def Draft.add (draft : Draft) (entry : String × Toml.Value) : Except Toml.Error Draft :=
  match Key.ofName? entry.1 with
  | some key => draft.set key entry.2
  | none => .ok draft

/-- The configuration of a document; of several faults the first in its order is reported. -/
def ofEntries (entries : Toml.Entries) : Except Toml.Error Config := do
  return (← entries.foldlM Draft.add {}).complete

/-- The configuration that a text holds. -/
def ofToml (text : String) : Except Toml.Error Config :=
  match Toml.document? text with
  | some entries => ofEntries entries
  | none => .error .malformed

/-! ## Writing -/

/-- The written value of a key; there is none for a duration of `2 ^ 63` seconds or more. -/
def tomlValue? (config : Config) : Key → Option (List Char)
  | .apiServerAddr => some (Toml.writeText config.apiServerAddr)
  | .edgeId => some (Toml.writeText config.edgeId.text)
  | .endpointId => some (Toml.writeText config.endpointId)
  | .controllerUrl => some (Toml.writeText config.controllerUrl)
  | .pollFrequency => Toml.writeNatural? config.pollFrequency.seconds
  | .inactivityTimeout => Toml.writeNatural? config.inactivityTimeout.seconds
  | .insecurePoll => some (Toml.writeBoolean config.insecurePoll)
  | .tunnelCapability => some (Toml.writeBoolean config.tunnelCapability)
  | .tunnelServerAddr => some (Toml.writeText config.tunnelServerAddr)
  | .tunnelServerFingerprint => some (Toml.writeText config.tunnelServerFingerprint)
  | .platform => some (Toml.writeText config.platform.name)

/-- The lines of some keys. -/
def tomlLines? (config : Config) (keys : List Key) : Option (List Char) := do
  let lines ← keys.mapM fun key => (config.tomlValue? key).map (Toml.writeEntry key.name)
  return lines.flatten

/-- Why a duration of `2 ^ 63` seconds or more cannot be written. -/
def tooLong : String := "out-of-range value for u64 type"

/-- The file of a configuration. -/
def toToml (config : Config) : Except ConfigError String :=
  match config.tomlLines? Key.all with
  | some lines => .ok (String.ofList lines)
  | none => .error (.serialize tooLong)

end CheckIn.Config
