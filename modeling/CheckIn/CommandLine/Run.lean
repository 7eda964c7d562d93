/-
# Running the program

The program finds its configuration, starts the service without a transport for tunnels, and runs
until it is interrupted.  The configuration has four layers, of which the first that gives an
entry counts: the command line, the environment, the file, the defaults.
-/
import CheckIn.CommandLine.Arguments
import CheckIn.CommandLine.LogFilter
import CheckIn.Config.File
import CheckIn.Config.Location
import CheckIn.Service

namespace CheckIn.CommandLine

/-- The variables of the environment. -/
abbrev Environment := List (String × String)

/-- The value of a variable. -/
def Environment.get? (environment : Environment) (name : String) : Option String :=
  (environment.find? fun entry => entry.1 = name).map Prod.snd

/-- What the program itself reports. -/
inductive ProgramRecord
  | starting
  /-- The file is there but cannot be used. -/
  | loadFailed (path : String) (error : ConfigError)
  | noTransport
  | polling (endpointId url : String)
  | shuttingDown
deriving DecidableEq, Repr

namespace ProgramRecord

def level : ProgramRecord → LogLevel
  | loadFailed _ _ | noTransport => .warn
  | starting | polling _ _ | shuttingDown => .info

def message : ProgramRecord → String
  | starting => "Edge poll agent starting..."
  | loadFailed path error => "Failed to load config from " ++ quoted path ++ ": " ++ error.message
  | noTransport =>
    "No tunnel transport is built into this binary, running without reverse tunnel"
  | polling endpointId url =>
    "Polling controller endpoint_id=" ++ endpointId ++ " controller_url=" ++ quoted url
  | shuttingDown => "Shutting down..."

/-- The line that shows a record. -/
def line (record : ProgramRecord) : String := record.level.name ++ " " ++ record.message

end ProgramRecord

/-! ## The configuration -/

/-- The path of the configuration file. -/
def configPath (arguments : Arguments) (environment : Environment) : String :=
  arguments.config.getD
    (Config.defaultPath ((environment.get? "HOME").getD "") (environment.get? "XDG_CONFIG_HOME"))

/-- The configuration in the file.  A file that is not there, or cannot be used, counts as an
empty one. -/
def fileConfig (files : FileSystem) (path : String) : Config × List ProgramRecord :=
  if files.isThere path then
    match Config.load files path with
    | .ok config => (config, [])
    | .error error => ({}, [.loadFailed path error])
  else ({}, [])

/-- What the command line and the environment give. -/
def overrides (arguments : Arguments) (environment : Environment) : Config.Draft where
  controllerUrl := arguments.controllerUrl.or (environment.get? "EDGE_CONTROLLER_URL")
  edgeId := (arguments.edgeId.or (environment.get? "EDGE_ID")).map EdgeId.mk
  endpointId := arguments.endpointId.or (environment.get? "EDGE_ENDPOINT_ID")
  pollFrequency := arguments.pollFrequency.map .ofSeconds
  inactivityTimeout := arguments.inactivityTimeout.map .ofSeconds
  insecurePoll := if arguments.insecurePoll then some true else none
  platform := arguments.platform

/-- The configuration with which the service is started, and what is reported on the way.  This
program has no transport, so it never manages tunnels. -/
def resolve (arguments : Arguments) (environment : Environment) (files : FileSystem) :
    Config × List ProgramRecord :=
  let (config, records) := fileConfig files (configPath arguments environment)
  let config := (overrides arguments environment).over config
  ({ config with tunnelCapability := false },
    records ++ if config.tunnelCapability then [.noTransport] else [])

/-! ## The whole program -/

/-- What a run of the program leaves behind. -/
structure Report where
  /-- The exit status. -/
  exit : UInt8
  /-- The configuration with which the service was started. -/
  config : Option Config := none
  /-- The lines of the log. -/
  log : List String := []
  /-- What is written to the error output when the service does not start. -/
  failure : Option String := none
deriving DecidableEq

/-- The name by which log filters know the program. -/
def logTarget : String := "ep_agent"

/-- The filter of the log: a variable of the environment, or else as the arguments say. -/
def logFilter (arguments : Arguments) (environment : Environment) : String :=
  match environment.get? "RUST_LOG" with
  | some filter => filter
  | none => if arguments.foreground then "debug" else arguments.logLevel.getD "info"

/-- The instants that the clock of a machine can show from its start, in nanoseconds. -/
def clockRange : Nat := 0x8000000000000000 * nanosPerSecond

/-- The report of an error: what was attempted, and the causes with their numbers. -/
def failureText (context : String) (error : AgentError) : String :=
  let numbered := error.causes.zipIdx.map fun cause =>
    "\n    " ++ decimalNat cause.2 ++ ": " ++ cause.1
  "Error: " ++ context ++ "\n\nCaused by:" ++ String.join numbered

/-- Runs the program; an interrupt comes as soon as the service runs. -/
def run (clockEnd : Nat) (arguments : List String) (environment : Environment)
    (files : FileSystem) : Report :=
  match Arguments.ofList arguments with
  | .error .information => { exit := 0 }
  | .error .usage => { exit := 2 }
  | .ok arguments =>
    let limit := logLimit (logFilter arguments environment) logTarget
    let (config, found) := resolve arguments environment files
    let lines (records : List ProgramRecord) : List String :=
      (records.filter fun record => limit.shows record.level).map ProgramRecord.line
    match Service.spawn config { clockEnd } with
    | .error error =>
      { exit := 1
        config := some config
        log := lines (.starting :: found)
        failure := some (failureText "Failed to start poll service" error) }
    | .ok _ =>
      { exit := 0
        config := some config
        log := lines (.starting :: found ++
          [.polling config.endpointId config.baseUrl, .shuttingDown]) }

end CheckIn.CommandLine
