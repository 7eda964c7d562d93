/-
# Configurations as JSON

A configuration is written as an object with all its entries, durations as whole seconds.
-/
import CheckIn.Config.Basic
import CheckIn.Json.Record

namespace CheckIn
open Json

/-- Reads a duration, a whole number of seconds. -/
def Duration.read : Reader Duration := do return .ofSeconds (← unsigned)

/-- Writes the whole seconds of a duration. -/
def Duration.write (duration : Duration) : List Char := decimalDigits duration.seconds

namespace Config

/-- The entry of a key, as a field of a record. -/
def Key.field : Key → Json.Field Draft
  | apiServerAddr => .of apiServerAddr.name (·.apiServerAddr)
      (fun v d => { d with apiServerAddr := some v }) fun _ => Json.text "a string"
  | edgeId => .of edgeId.name (·.edgeId)
      (fun v d => { d with edgeId := some v }) fun _ => EdgeId.read
  | endpointId => .of endpointId.name (·.endpointId)
      (fun v d => { d with endpointId := some v }) fun _ => Json.text "a string"
  | controllerUrl => .of controllerUrl.name (·.controllerUrl)
      (fun v d => { d with controllerUrl := some v }) fun _ => Json.text "a string"
  | pollFrequency => .of pollFrequency.name (·.pollFrequency)
      (fun v d => { d with pollFrequency := some v }) fun _ => Duration.read
  | inactivityTimeout => .of inactivityTimeout.name (·.inactivityTimeout)
      (fun v d => { d with inactivityTimeout := some v }) fun _ => Duration.read
  | insecurePoll => .of insecurePoll.name (·.insecurePoll)
      (fun v d => { d with insecurePoll := some v }) fun _ => boolean
  | tunnelCapability => .of tunnelCapability.name (·.tunnelCapability)
      (fun v d => { d with tunnelCapability := some v }) fun _ => boolean
  | tunnelServerAddr => .of tunnelServerAddr.name (·.tunnelServerAddr)
      (fun v d => { d with tunnelServerAddr := some v }) fun _ => Json.text "a string"
  | tunnelServerFingerprint => .of tunnelServerFingerprint.name (·.tunnelServerFingerprint)
      (fun v d => { d with tunnelServerFingerprint := some v }) fun _ => Json.text "a string"
  | platform => .of platform.name (·.platform)
      (fun v d => { d with platform := some v }) Platform.read

/-- The entries of a configuration. -/
def record : Record Draft where
  wanted := "struct AgentConfig"
  fields := Key.all.map Key.field
  allInList := false

/-- Reads a configuration. -/
def read (room : Nat) : Reader Config := do return (← record.read room {}).complete

/-- Writes the value of an entry. -/
def writeValue (config : Config) : Key → List Char
  | .apiServerAddr => Text.write config.apiServerAddr
  | .edgeId => config.edgeId.write
  | .endpointId => Text.write config.endpointId
  | .controllerUrl => Text.write config.controllerUrl
  | .pollFrequency => config.pollFrequency.write
  | .inactivityTimeout => config.inactivityTimeout.write
  | .insecurePoll => writeBoolean config.insecurePoll
  | .tunnelCapability => writeBoolean config.tunnelCapability
  | .tunnelServerAddr => Text.write config.tunnelServerAddr
  | .tunnelServerFingerprint => Text.write config.tunnelServerFingerprint
  | .platform => config.platform.write

/-- Writes a configuration. -/
def write (config : Config) : List Char :=
  writeObject (Key.all.map fun key => (key.name, config.writeValue key))

end Config

end CheckIn
