/-
# Where the configuration is

Unless told otherwise the agent looks for its configuration in a directory of the user's
configuration directory.
-/

namespace CheckIn.Config

/-- A path with a name below it. -/
def joinPath (path name : String) : String :=
  if path = "" ∨ path.toList.getLast? = some '/' then path ++ name else path ++ "/" ++ name

/-- The user's configuration directory: the one that is set, if it is absolute, else the usual
one in the home directory. -/
def userDirectory (home : String) (configHome : Option String) : String :=
  match configHome with
  | some path =>
    if path.toList.head? = some '/' then path else joinPath home ".config"
  | none => joinPath home ".config"

/-- The directory of the agent's configuration. -/
def directory (home : String) (configHome : Option String) : String :=
  joinPath (userDirectory home configHome) "edgepoll"

/-- The path of the agent's configuration. -/
def defaultPath (home : String) (configHome : Option String) : String :=
  joinPath (directory home configHome) "agent.toml"

end CheckIn.Config
