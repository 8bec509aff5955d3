import ManifestBundle.Document.Basic

/-!
# Selectors

A selector states criteria on the identity, labels and annotations of a document.
A criterion that is not set holds of every document, and a document is selected if
all criteria hold. Labels and annotations are asked for as a subset of those of the
document, or exactly. A document without a name is never selected.

A selector may also carry a position among the documents it selects. It is no
criterion; a bundle uses it to pick one of them.
-/

namespace ManifestBundle

/-- How the labels and annotations of a selector compare with those of a document. -/
inductive LabelMatch where
  /-- The document has each of them, and may have others. -/
  | subset
  /-- The document has each of them and no others. -/
  | exact
deriving DecidableEq, Repr, Inhabited

/-- The name of the mode in settings and messages. -/
def LabelMatch.name : LabelMatch → String
  | .subset => "subset"
  | .exact => "exact"

/-- Criteria on the identity, labels and annotations of a document. -/
structure Selector where
  group : Option String := none
  version : Option String := none
  kind : Option String := none
  name : Option String := none
  namespaceName : Option String := none
  labels : KeyValues := .empty
  annotations : KeyValues := .empty
  /-- The position, from zero, among the documents selected. -/
  index : Option Nat := none
  labelMatch : LabelMatch := .subset
deriving DecidableEq, Inhabited

namespace Selector

/-- The selector without criteria. -/
def any : Selector :=
  {}

/-- The selector of a group, version and kind. -/
def ofKind (group version kind : String) : Selector :=
  { group, version, kind }

/-- The selector of an identity. -/
def ofId (id : DocumentId) : Selector :=
  { ofKind id.group id.version id.kind with namespaceName := id.namespaceName, name := id.name }

/-- The selector that asks for more labels. -/
def withLabels (s : Selector) (entries : List (String × String)) : Selector :=
  { s with labels := s.labels.insertAll entries }

/-- The selector that asks for more annotations. -/
def withAnnotations (s : Selector) (entries : List (String × String)) : Selector :=
  { s with annotations := s.annotations.insertAll entries }

/-- No criterion is set. -/
def isEmpty (s : Selector) : Bool :=
  s.group.isNone && s.version.isNone && s.kind.isNone && s.name.isNone &&
    s.namespaceName.isNone && s.labels.isEmpty && s.annotations.isEmpty

/-- A criterion on a text holds of it. -/
def admits (wanted : Option String) (actual : String) : Bool :=
  match wanted with
  | none => true
  | some w => w = actual

/-- A criterion on labels or annotations holds; one that asks for nothing does in
    either mode. -/
def admitsAll (mode : LabelMatch) (wanted actual : KeyValues) : Bool :=
  wanted.isEmpty ||
    match mode with
    | .subset => wanted.isSubsetOf actual
    | .exact => wanted = actual

/-- The selector selects the document. -/
def selects (s : Selector) (d : Document) : Bool :=
  d.isMaterialized && admits s.group d.group && admits s.version d.version &&
    admits s.kind d.kind && admits s.name d.name && admits s.namespaceName d.namespaceName &&
    admitsAll s.labelMatch s.labels d.labels && admitsAll s.labelMatch s.annotations d.annotations

/-- A criterion on a text as it stands in messages. -/
def criterionText (label : String) (wanted : Option String) : List String :=
  match wanted with
  | none => []
  | some w => [label ++ "=" ++ w]

/-- A criterion on labels or annotations as it stands in messages. -/
def mapCriterionText (label : String) (wanted : KeyValues) : List String :=
  if wanted.isEmpty then [] else [label ++ "=\x7b" ++ wanted.text ++ "\x7d"]

/-- The text of a selector: its criteria, the mode unless it is the usual one, and
    the position. -/
def text (s : Selector) : String :=
  let parts := criterionText "group" s.group ++ criterionText "version" s.version ++
    criterionText "kind" s.kind ++ criterionText "name" s.name ++
    criterionText "namespace" s.namespaceName ++ mapCriterionText "labels" s.labels ++
    mapCriterionText "annotations" s.annotations ++
    (if s.labelMatch = .exact then ["match=exact"] else []) ++
    criterionText "index" (s.index.map fun i => String.ofList (Nat.toDigits 10 i))
  if parts.isEmpty then "\x7b\x7d" else String.intercalate ", " parts

end Selector

end ManifestBundle
