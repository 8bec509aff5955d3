import ManifestBundle.Command.Run
import ManifestBundle.Command.Usage

/-!
# The program

The outer layer: it reads the files that the command line names, and standard input if
the command asks for it, and writes the outcome. Directories are not listed here, so a
path that names one is reported as no file.
-/

namespace ManifestBundle

/-- The tree with the file at a path, if it can be read. -/
def readInto (files : FileTree) (path : String) : IO FileTree := do
  match ← (IO.FS.readBinFile path).toBaseIO with
  | .ok content => return (files.put? path (.file content.toList)).getD files
  | .error _ => return files

/-- The octets of standard input. -/
partial def readInput (stream : IO.FS.Stream) (read : ByteArray) : IO ByteArray := do
  let more ← stream.read 65536
  if more.isEmpty then return read else readInput stream (read ++ more)

/-- How the program is used. -/
def usageText : String :=
  "Usage: bundlequill [--config FILE] [--verbose] list|get|validate [OPTIONS] [PATHS]\n"

/-- Runs the invocation and gives the exit code. -/
def runInvocation (i : Invocation) : IO UInt32 := do
  let home := (← IO.getEnv "HOME").getD "."
  let paths := i.config.getD (Config.usualPath home) :: i.command.paths
  let files ← paths.foldlM readInto {}
  let input ←
    if i.command.readsInput then readInput (← IO.getStdin) .empty else pure .empty
  let outcome := i.run files home input.toList
  IO.print outcome.output
  match outcome.error with
  | none => return 0
  | some e =>
    IO.eprintln s!"Error: {e.message}"
    return 1

end ManifestBundle

open ManifestBundle in
/-- Runs the command that the arguments spell. -/
def main (arguments : List String) : IO UInt32 := do
  match Invocation.parse arguments with
  | .ok i => runInvocation i
  | .error .versionWanted =>
    IO.println "bundlequill 0.1.0"
    return 0
  | .error e =>
    if e.exitCode = 0 then IO.print usageText else IO.eprint usageText
    return UInt32.ofNat e.exitCode
