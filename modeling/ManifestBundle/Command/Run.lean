import ManifestBundle.Command.Basic
import ManifestBundle.Config.File
import ManifestBundle.Validation

/-!
# Running a command

A command reads its settings, then all manifests, and only then looks at them. What
it writes and whether it fails is its outcome: it writes everything or, if it fails,
nothing, but for a validation, which writes the problems that it has found.
-/

namespace ManifestBundle

/-- Why a command fails. -/
inductive CommandError where
  | config (cause : Config.LoadError)
  | load (cause : LoadError)
  | document (cause : DocumentError)
  | settings (cause : Config.Problem)
  /-- A validation has found problems. -/
  | problems (count documents : Nat)
deriving DecidableEq

/-- The wording of an error. -/
def CommandError.message : CommandError → String
  | .config cause => cause.message
  | .load cause => cause.message
  | .document cause => cause.message
  | .settings cause => cause.message
  | .problems count documents => s!"{count} problem(s) found in {documents} document(s)"

/-- What a command writes, and why it fails, if it does. -/
structure Outcome where
  output : String := ""
  error : Option CommandError := none
deriving DecidableEq

/-- The outcome of a failure that leaves nothing written. -/
def Outcome.failure (e : CommandError) : Outcome :=
  { error := some e }

/-- The line that lists a document. -/
def Document.listLine (d : Document) : String :=
  d.apiVersion ++ "\t" ++ d.kind ++ "\t" ++ slashed d.namespaceName d.name ++ "\n"

namespace Bundle

/-- Lists the documents that the selector selects. -/
def list (b : Bundle) (s : Selector) : Outcome :=
  { output := String.join ((b.filter s).map Document.listLine) }

/-- The text of the document that the selector selects, or of what a key path leads to
    in it. -/
def extract (b : Bundle) (s : Selector) (path : Option String) (format : OutputFormat) :
    Except DocumentError String := do
  let d ← b.select s
  match path with
  | some path => return (← d.lookupPath path).render format
  | none => return Document.renderAll [d] format

/-- Gets the document that the selector selects, or what a key path leads to in it. -/
def get (b : Bundle) (s : Selector) (path : Option String) (format : OutputFormat) : Outcome :=
  match b.extract s path format with
  | .ok text => { output := text }
  | .error e => .failure (.document e)

/-- The line that tells a problem. -/
def problemLine (problem : String) : String :=
  "error: " ++ problem ++ "\n"

/-- The problem that several documents share an identity. -/
def duplicateProblem (id : DocumentId) : String :=
  "duplicate document " ++ id.text

/-- The outcome of a validation that has found the given problems. -/
def verdict (b : Bundle) (problems : List String) : Outcome :=
  if problems.isEmpty then { output := s!"{b.size} document(s) valid\n" }
  else {
    output := String.join (problems.map problemLine)
    error := some (.problems problems.length b.size) }

/-- Validates the documents under the settings. The first malformed document ends the
    validation, unless what is wrong is collected. -/
def validate (b : Bundle) (c : Config) (collect : Bool) : Outcome :=
  match c.schema with
  | .error e => .failure (.settings e)
  | .ok schema =>
    let duplicates := b.duplicates.map duplicateProblem
    if collect then b.verdict ((schema.violations b).map DocumentError.message ++ duplicates)
    else match schema.validateBundle b with
      | .error e => .failure (.document e)
      | .ok () => b.verdict duplicates

end Bundle

/-- The bundle of the manifests at paths. -/
def Bundle.load (files : FileTree) (input : List UInt8) (c : Config) (paths : List String) :
    Except LoadError Bundle := do
  let sources ← Source.ofPaths files c.includeGzip paths
  let (documents, _) ← Source.loadAll files input sources
  return ⟨documents⟩

namespace Command

/-- The paths that the command reads. -/
def paths : Command → List String
  | .list _ paths => paths
  | .get _ _ _ _ paths => paths
  | .validate _ paths => paths

/-- The command reads standard input. -/
def readsInput (c : Command) : Bool :=
  c.paths.isEmpty || c.paths.contains "-"

/-- The outcome of the command on a bundle. -/
def runOn (b : Bundle) (c : Config) : Command → Outcome
  | .list criteria _ =>
    match criteria.selector c.labelMatch with
    | .error e => .failure (.document e)
    | .ok s => b.list s
  | .get criteria index path output _ =>
    match criteria.selector c.labelMatch with
    | .error e => .failure (.document e)
    | .ok s => b.get { s with index } path (output.getD c.output)
  | .validate collect _ => b.validate c (collect || !c.failFast)

/-- The outcome of the command under the settings. -/
def run (files : FileTree) (input : List UInt8) (c : Config) (command : Command) : Outcome :=
  match Bundle.load files input c command.paths with
  | .error e => .failure (.load e)
  | .ok b => command.runOn b c

end Command

/-- The settings that an invocation goes by. -/
def Invocation.settings (files : FileTree) (home : String) (i : Invocation) :
    Except Config.LoadError Config :=
  match i.config with
  | some path => Config.loadFrom files path
  | none => Config.load files home

/-- The outcome of an invocation. -/
def Invocation.run (files : FileTree) (home : String) (input : List UInt8) (i : Invocation) :
    Outcome :=
  match i.settings files home with
  | .error e => .failure (.config e)
  | .ok c => i.command.run files input c

end ManifestBundle
