import ManifestBundle.Files.Tree

/-!
# Manifest files below a directory

A directory is walked with its entries in the order of their names, each directory
in the place of its name. Links in it are neither followed nor listed. Manifest files
are told by the end of their name.
-/

namespace ManifestBundle

/-- A file with this path holds manifests; a compressed one does if compressed files
    are wanted. -/
def isManifestPath (withGzip : Bool) (path : String) : Bool :=
  let plain (p : String) := Path.endsWith p ".yaml" || Path.endsWith p ".yml"
  if Path.endsWith path ".gz" then withGzip && plain (path.dropEnd 3).toString else plain path

namespace FileNode

mutual

/-- The paths of the files at and below an entry, for the path of the entry; those
    below a directory are in the order of its entries. -/
def filePaths (path : String) : FileNode → List String
  | .file _ => [path]
  | .directory entries =>
    ((entryPaths path entries).mergeSort fun (m, _) (n, _) => m ≤ n).flatMap Prod.snd
  | .link _ => []
termination_by structural n => n

/-- The names of entries of a directory, with the paths of the files below each. -/
def entryPaths (path : String) : List (String × FileNode) → List (String × List String)
  | [] => []
  | (name, n) :: entries => (name, filePaths (Path.join path name) n) :: entryPaths path entries
termination_by structural entries => entries

end

end FileNode

/-- The files at and below a path; `none` if nothing is there. The path itself may be a
    link, which is followed to a directory; one to a file stands for no file. -/
def FileTree.filesBelow? (t : FileTree) (path : String) : Option (List String) := do
  match ← t.entry? path with
  | .link _ =>
    let n ← t.find? path
    some (if n.isDirectory then n.filePaths path else [])
  | n => some (n.filePaths path)

/-- The manifest files at and below a path; `none` if nothing is there. -/
def FileTree.manifestFiles? (t : FileTree) (path : String) (withGzip : Bool) :
    Option (List String) :=
  (t.filesBelow? path).map (·.filter (isManifestPath withGzip))

end ManifestBundle
