/-
# The program

What the program needs from the machine is read here, and what a run leaves behind is written
here: the log to the standard output, the reason of a failure to the error output.
-/
import CheckIn.CommandLine.Run

namespace CheckIn.CommandLine

/-- The variables of the environment that concern the program. -/
def variableNames : List String :=
  ["HOME", "XDG_CONFIG_HOME", "EDGE_CONTROLLER_URL", "EDGE_ID", "EDGE_ENDPOINT_ID", "RUST_LOG"]

/-- Reads the variables that are set. -/
def readEnvironment : IO Environment :=
  variableNames.filterMapM fun name => do return (← IO.getEnv name).map fun value => (name, value)

/-- The code with which the machine refuses to read a directory as a file. -/
def directoryCode : UInt32 := 21

/-- Reads what is at a path. -/
def readPath (path : String) : IO FileSystem := do
  try
    return .holding path (.file (← IO.FS.readBinFile path).toList)
  catch
    | .inappropriateType _ code _ =>
      return if code = directoryCode then .holding path .directory else {}
    | _ => return {}

/-- Reads the configuration file that the arguments ask for. -/
def readFiles (arguments : List String) (environment : Environment) : IO FileSystem :=
  match Arguments.ofList arguments with
  | .ok given => readPath (configPath given environment)
  | .error _ => return {}

/-- Writes what a run leaves behind. -/
def writeReport (report : Report) : IO UInt32 := do
  for line in report.log do
    IO.println line
  if let some text := report.failure then
    IO.eprintln text
  return report.exit.toUInt32

end CheckIn.CommandLine

open CheckIn.CommandLine in
/-- Runs the program with the arguments of the command line. -/
def main (arguments : List String) : IO UInt32 := do
  let environment ← readEnvironment
  let files ← readFiles arguments environment
  let sinceStart ← IO.monoNanosNow
  writeReport (run (clockRange - sinceStart) arguments environment files)
