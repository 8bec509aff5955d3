import ManifestBundle.Config.Basic
import ManifestBundle.Source

/-!
# Settings in files

Settings are loaded from a given file, which must be there, or from the usual one
below the home directory if it is there. Saved settings are read back as they were.
-/

namespace ManifestBundle.Config

/-- Why settings cannot be loaded. -/
inductive LoadError where
  /-- There is no file of text at the path. -/
  | unreadable (path : String)
  /-- The text at the path holds no settings. -/
  | malformed (path : String)
deriving DecidableEq, Repr

/-- The wording of an error. -/
def LoadError.message : LoadError → String
  | .unreadable path => s!"Failed to read config file {path}"
  | .malformed path => s!"Failed to parse config file {path}"

/-- The path of the usual file. -/
def usualPath (home : String) : String :=
  Path.join (Path.join (Path.join home ".config") "bundlequill") "config.toml"

/-- The settings in a file. -/
def loadFrom (files : FileTree) (path : String) : Except LoadError Config :=
  match (files.read? path).bind decodeText? with
  | none => .error (.unreadable path)
  | some text =>
    match parse? text with
    | some c => .ok c
    | none => .error (.malformed path)

/-- The settings in the usual file; the usual settings if it is not there. -/
def load (files : FileTree) (home : String) : Except LoadError Config :=
  if files.exists? (usualPath home) then loadFrom files (usualPath home) else .ok {}

/-- The file tree after the settings have been saved to a file; `none` if it cannot be
    written. -/
def save? (files : FileTree) (path : String) (c : Config) : Option FileTree :=
  files.write? path c.text.toUTF8.toList

end ManifestBundle.Config
