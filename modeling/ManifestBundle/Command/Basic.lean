import ManifestBundle.Rendering
import ManifestBundle.Selector
import ManifestBundle.Document.Manifest

/-!
# Commands

What the program is asked to do: list the documents that criteria select, get one of
them or a part of it, or validate all documents. Criteria are kept as they were
given; the selector that they describe is made when the way of comparing labels is
known (`Criteria.selector`).
-/

namespace ManifestBundle

/-- Criteria on documents, as they were given. -/
structure Criteria where
  /-- Group and version, parted by the last slash. -/
  apiVersion : Option String := none
  group : Option String := none
  kind : Option String := none
  name : Option String := none
  namespaceName : Option String := none
  /-- Lists of labels. -/
  labels : List String := []
  /-- Lists of annotations. -/
  annotations : List String := []
  /-- Labels and annotations are compared exactly. -/
  exact : Bool := false
deriving DecidableEq, Repr, Inhabited

/-- The labels or annotations in several lists; of those with one key the last counts. -/
def KeyValues.parseAll (start : KeyValues) : List String → Except DocumentError KeyValues
  | [] => .ok start
  | text :: rest =>
    match KeyValues.parse text with
    | .ok m => (start.insertAll m.entries).parseAll rest
    | .error cause => .error (.invalidLabels text cause)

/-- The selector that the criteria describe; labels are compared as given, unless the
    criteria say exactly. -/
def Criteria.selector (c : Criteria) (labelMatch : LabelMatch) : Except DocumentError Selector := do
  let (group, version) := match c.apiVersion.map Document.splitApiVersion with
    | some (group, version) => (some group, some version)
    | none => (none, none)
  let labels ← KeyValues.empty.parseAll c.labels
  let annotations ← KeyValues.empty.parseAll c.annotations
  return {
    group := c.group.or group
    version, labels, annotations
    kind := c.kind
    name := c.name
    namespaceName := c.namespaceName
    labelMatch := if c.exact then .exact else labelMatch }

/-- What is to be done. The paths name files and directories; without any, standard
    input is read. -/
inductive Command where
  /-- Lists the documents that are selected. -/
  | list (criteria : Criteria) (paths : List String)
  /-- Gets the document that is selected, or the one at a position among those that
      are, or what a key path leads to in it. -/
  | get (criteria : Criteria) (index : Option Nat) (path : Option String)
      (output : Option OutputFormat) (paths : List String)
  /-- Validates all documents, and collects what is wrong if asked to. -/
  | validate (collect : Bool) (paths : List String)
deriving DecidableEq, Repr

/-- A command and what goes with every command. -/
structure Invocation where
  /-- The file with the settings. -/
  config : Option String
  verbosity : Nat
  command : Command
deriving DecidableEq, Repr

end ManifestBundle
