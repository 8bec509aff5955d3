import ManifestBundle.Files.Path

/-!
# File trees

A file tree is what a program can find by paths: files, directories and symbolic
links, below one root, which is also the directory that relative paths start from. A
*place* is the list of names that leads from the root to an entry through real
directories (`FileNode.at?`); following a path gives a place (`FileTree.place?`),
where links on the way, and at the end, are replaced by what they point to.

Writing creates the directories on the way (`FileTree.write?`).
-/

namespace ManifestBundle

/-- An entry of a directory. -/
inductive FileNode where
  | file (content : List UInt8)
  | directory (entries : List (String × FileNode))
  | link (target : String)

instance : Inhabited FileNode :=
  ⟨.directory []⟩

namespace FileNode

/-- The entry is a regular file. -/
def isFile : FileNode → Bool
  | .file _ => true
  | _ => false

/-- The entry is a directory. -/
def isDirectory : FileNode → Bool
  | .directory _ => true
  | _ => false

/-- The entry of a name, in a directory that has it. -/
def child? (n : FileNode) (name : String) : Option FileNode :=
  match n with
  | .directory entries => entries.lookup name
  | _ => none

/-- The entry that names lead to from one directory to the next. -/
def at? (n : FileNode) : List String → Option FileNode
  | [] => some n
  | name :: names => (n.child? name).bind (·.at? names)

/-- Entries with one of them put in the place of its name, or added. -/
def setEntry (name : String) (n : FileNode) : List (String × FileNode) → List (String × FileNode)
  | [] => [(name, n)]
  | (m, e) :: rest => if m = name then (name, n) :: rest else (m, e) :: setEntry name n rest

/-- Puts an entry where names lead to; fails if there is no directory on the way. -/
def put? (new : FileNode) : List String → FileNode → Option FileNode
  | [], _ => some new
  | name :: names, .directory entries => do
    let child ← match names, entries.lookup name with
      | [], _ => some new
      | _, some child => put? new names child
      | _, none => none
    return .directory (setEntry name child entries)
  | _ :: _, _ => none

end FileNode

/-- A file tree, given by its root directory. -/
structure FileTree where
  root : FileNode := .directory []
deriving Inhabited

namespace FileTree

/-! ## Following paths -/

/-- A step of a path. -/
inductive Step where
  /-- Stays in a directory. -/
  | stay
  /-- Goes to the directory that holds this one. -/
  | up
  | down (name : String)
deriving DecidableEq, Repr

/-- The step that a piece of a path stands for. -/
def Step.ofPiece (piece : List Char) : Step :=
  if piece.isEmpty || piece = ['.'] then .stay
  else if piece = ['.', '.'] then .up
  else .down (String.ofList piece)

/-- The steps of a path; an empty path leads nowhere. -/
def steps? (path : String) : Option (List Step) :=
  if path = "" then none else some ((Path.pieces path).map .ofPiece)

/-- The place that a path starts from. -/
def start (path : String) (here : List String) : List String :=
  if path.toList.head? = some '/' then [] else here

/-- Follows steps from a place; `onLink` follows the steps from a place where a link
    has been replaced by its target. Every step starts from a directory. -/
def walk? (root : FileNode) (onLink : List String → List Step → Option (List String)) :
    List String → List Step → Option (List String)
  | here, [] => some here
  | here, step :: rest => do
    if !((root.at? here).any FileNode.isDirectory) then none
    match step with
    | .stay => walk? root onLink here rest
    | .up => walk? root onLink here.dropLast rest
    | .down name =>
      match ← root.at? (here ++ [name]) with
      -- The target of a link starts from the directory that the link is in.
      | .link target => onLink (start target here) ((← steps? target) ++ rest)
      | _ => walk? root onLink (here ++ [name]) rest

/-- Follows steps from a place, through fewer links than given. -/
def follow? (root : FileNode) : Nat → List String → List Step → Option (List String)
  | 0 => fun _ _ => none
  | links + 1 => walk? root (follow? root links)

/-- One more than the number of links that a path may lead through. -/
def linkLimit : Nat :=
  41

/-- The place that a path leads to. -/
def place? (t : FileTree) (path : String) : Option (List String) := do
  follow? t.root linkLimit (start path []) (← steps? path)

/-- The file or directory that a path leads to. -/
def find? (t : FileTree) (path : String) : Option FileNode := do
  t.root.at? (← t.place? path)

/-- The entry that a path leads to, which may itself be a link. -/
def entry? (t : FileTree) (path : String) : Option FileNode := do
  let steps ← steps? path
  match steps.getLast? with
  | some (.down name) =>
    let directory ← follow? t.root linkLimit (start path []) steps.dropLast
    t.root.at? (directory ++ [name])
  | _ => t.find? path

/-- The content of the file that a path leads to. -/
def read? (t : FileTree) (path : String) : Option (List UInt8) :=
  match t.find? path with
  | some (.file content) => some content
  | _ => none

/-- The path leads to a directory. -/
def isDirectory (t : FileTree) (path : String) : Bool :=
  (t.find? path).any FileNode.isDirectory

/-- The path leads to a file or directory. -/
def exists? (t : FileTree) (path : String) : Bool :=
  (t.find? path).isSome

/-! ## Changes -/

/-- The tree with the directories that the steps go down to, each made unless it is
    there; fails where a file is in the way. -/
def makeDirectories? (t : FileTree) (here : List String) :
    List Step → Option (FileTree × List String)
  | [] => if (t.root.at? here).any FileNode.isDirectory then some (t, here) else none
  | step :: rest => do
    match follow? t.root linkLimit here [step], step with
    | some place, _ => makeDirectories? t place rest
    | none, .down name =>
      if (t.root.at? (here ++ [name])).isSome then none
      let root ← FileNode.put? (.directory []) (here ++ [name]) t.root
      makeDirectories? ⟨root⟩ (here ++ [name]) rest
    | none, _ => none

/-- The tree with an entry at a path, in directories that are made on the way. -/
def put? (t : FileTree) (path : String) (new : FileNode) : Option FileTree := do
  let steps ← steps? path
  match steps.getLast? with
  | some (.down name) =>
    let (t, directory) ← t.makeDirectories? (start path []) steps.dropLast
    return ⟨← FileNode.put? new (directory ++ [name]) t.root⟩
  | _ => none

/-- Follows steps from a place to a file, which need not be there: the last of them may go
    down to a name that its directory does not have. `onLink` is that of `walk?`. -/
def walkToFile? (root : FileNode) (onLink : List String → List Step → Option (List String)) :
    List String → List Step → Option (List String)
  | _, [] => none
  | here, step :: rest =>
    if (root.at? here).any FileNode.isDirectory then
      match step with
      | .stay => walkToFile? root onLink here rest
      | .up => walkToFile? root onLink here.dropLast rest
      | .down name =>
        match root.at? (here ++ [name]), rest with
        | some (.link target), _ => do onLink (start target here) ((← steps? target) ++ rest)
        | _, [] => some (here ++ [name])
        | some _, _ => walkToFile? root onLink (here ++ [name]) rest
        | none, _ => none
    else none

/-- The place of the file that steps lead to, through fewer links than given. -/
def filePlace? (root : FileNode) : Nat → List String → List Step → Option (List String)
  | 0 => fun _ _ => none
  | links + 1 => walkToFile? root (filePlace? root links)

/-- The tree after content has been written to the file at a path, in directories that
    are made on the way. A link at the path is followed, and a directory there is an
    error. -/
def write? (t : FileTree) (path : String) (content : List UInt8) : Option FileTree := do
  let steps ← steps? path
  let (t, _) ← t.makeDirectories? (start path []) steps.dropLast
  let place ← filePlace? t.root linkLimit (start path []) steps
  if (t.root.at? place).any (!·.isFile) then none
  return ⟨← FileNode.put? (.file content) place t.root⟩

end FileTree

end ManifestBundle
