/-
# Configuration files

Loading and saving a configuration.  Saving writes the text first, so that a configuration that
cannot be written leaves the file system as it was.
-/
import CheckIn.Config.FileSystem
import CheckIn.Config.Toml

namespace CheckIn.Config

/-- The configuration that the bytes of a file hold. -/
def ofFile (content : List UInt8) : Except ConfigError Config :=
  match ofUtf8? content with
  | none => .error (.invalid "Failed to read config: stream did not contain valid UTF-8")
  | some text => (ofToml text).mapError .parse

/-- The configuration in the file at a path. -/
def load (files : FileSystem) (path : String) : Except ConfigError Config :=
  if files.isThere path then
    match files.read path with
    | .ok content => ofFile content
    | .error fault => .error (.invalid ("Failed to read config: " ++ fault.message))
  else .error (.notFound path)

/-- Saves a configuration to the file at a path, in a directory that is made if need be. -/
def save (files : FileSystem) (path : String) (config : Config) :
    Except ConfigError Unit × FileSystem :=
  match config.toToml with
  | .error error => (.error error, files)
  | .ok text =>
    let parts := (FileSystem.parts path).filter (!FileSystem.isStay ·)
    match files.makeDirectories parts.dropLast with
    | (.error fault, files) =>
      (.error (.invalid ("Failed to create config dir: " ++ fault.message)), files)
    | (.ok (), files) =>
      match files.write path (utf8 text) with
      | .error fault =>
        (.error (.invalid ("Failed to write config: " ++ fault.message)), files)
      | .ok files => (.ok (), files)

end CheckIn.Config
