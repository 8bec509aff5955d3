import ManifestBundle.DocumentError

/-!
# Schemas

A schema states which key paths documents must have. A rule requires a path of the
documents of a kind, either in every group or in one group. The rules are in a table with
one entry for each target that has any; the paths of an entry stand in the order in which
they were first given, each once.

Rules can be spelled in text: a *target* is a kind, or a group and a kind parted by
the last slash, and the required paths are listed for it.
-/

namespace ManifestBundle

/-- The documents that a rule is about. -/
structure Schema.Target where
  /-- The group; `none` stands for every group. -/
  group : Option String
  kind : String
deriving DecidableEq, Repr

/-- The documents of the target must have a value at the path. -/
structure Schema.Rule where
  target : Schema.Target
  path : KeyPath
deriving DecidableEq, Repr

/-- The rules, as paths for each target; targets and paths are in the order in which they
    were first given. -/
structure Schema where
  table : List (Schema.Target × List KeyPath)

namespace Schema

/-- The schema without rules. -/
def empty : Schema :=
  ⟨[]⟩

/-- No rule has been given. -/
def isEmpty (s : Schema) : Bool :=
  s.table.isEmpty

/-- A table with the path of one more rule at the end of the entry of its target, unless it
    is there already; a new target comes last. -/
def insert (rule : Rule) : List (Target × List KeyPath) → List (Target × List KeyPath)
  | [] => [(rule.target, [rule.path])]
  | (target, paths) :: table =>
    if target = rule.target then
      (target, if rule.path ∈ paths then paths else paths ++ [rule.path]) :: table
    else (target, paths) :: insert rule table

/-- The schema with one more rule, unless it has it already. -/
def add (s : Schema) (rule : Rule) : Schema :=
  ⟨insert rule s.table⟩

/-- Requires a path of the documents of a kind in every group. -/
def require (s : Schema) (kind : String) (path : KeyPath) : Schema :=
  s.add ⟨⟨none, kind⟩, path⟩

/-- Requires a path of the documents of a kind in one group. -/
def requireInGroup (s : Schema) (group kind : String) (path : KeyPath) : Schema :=
  s.add ⟨⟨some group, kind⟩, path⟩

/-- The target that a text spells. -/
def Target.ofText (text : String) : Target :=
  match Text.cutLast? '/' text.toList with
  | some (group, kind) => ⟨some (String.ofList group), String.ofList kind⟩
  | none => ⟨none, text⟩

/-- Requires paths in text of one target, up to the first that is not a path. -/
def requireTexts (s : Schema) (target : Target) : List String → Schema × Except DocumentError Unit
  | [] => (s, .ok ())
  | text :: rest =>
    match KeyPath.parse text with
    | .ok path => (s.add ⟨target, path⟩).requireTexts target rest
    | .error cause => (s, .error (.invalidPath text cause))

/-- Requires the paths listed for each target. What stands before the first text
    that is not a path is required even so. -/
def requireAll (s : Schema) : List (String × List String) → Schema × Except DocumentError Unit
  | [] => (s, .ok ())
  | (target, texts) :: rest =>
    match s.requireTexts (Target.ofText target) texts with
    | (s, .ok ()) => s.requireAll rest
    | (s, .error e) => (s, .error e)

/-- The paths required of one target. -/
def pathsOf (s : Schema) (target : Target) : List KeyPath :=
  (s.table.lookup target).getD []

/-- The paths required of a document: those of its kind in every group, then those
    of its kind in its group. -/
def requiredPaths (s : Schema) (d : Document) : List KeyPath :=
  s.pathsOf ⟨none, d.kind⟩ ++ s.pathsOf ⟨some d.group, d.kind⟩

/-- The kinds whose documents describe what is to run, and so have a `spec`. -/
def workloadKinds : List String :=
  ["Deployment", "StatefulSet", "DaemonSet", "ReplicaSet", "ReplicationController", "Service",
    "Job", "CronJob", "Pod"]

/-- The schema that requires a `spec` of every workload. -/
def builtin : Schema :=
  workloadKinds.foldl (fun s kind => s.require kind ⟨[.key "spec"]⟩) empty

end Schema

end ManifestBundle
