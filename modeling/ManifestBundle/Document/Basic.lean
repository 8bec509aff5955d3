import ManifestBundle.KeyValues
import ManifestBundle.Value

/-!
# Documents

A document is one configuration object: who it is (group, version, kind, namespace
and name), the labels and annotations it carries, and its data tree. Its
*identity* are the five texts of the first part; documents that share it are the
same object, whatever else they carry. A document without a name is not
*materialized*: it is a template that has no identity yet.
-/

namespace ManifestBundle

/-- Who a document is. -/
structure DocumentId where
  group : String
  version : String
  kind : String
  namespaceName : String
  name : String
deriving DecidableEq, Repr, Inhabited

/-- Two texts with a slash between them, or the second alone if the first is empty. -/
def slashed (first second : String) : String :=
  if first = "" then second else first ++ "/" ++ second

/-- The text of an identity: version, kind and name, the first and the last with
    what they are local to. -/
def DocumentId.text (id : DocumentId) : String :=
  slashed id.group id.version ++ " " ++ id.kind ++ " " ++ slashed id.namespaceName id.name

/-- A configuration object. -/
structure Document where
  group : String
  version : String
  kind : String
  name : String
  namespaceName : String := ""
  labels : KeyValues := .empty
  annotations : KeyValues := .empty
  data : Value := .null

namespace Document

/-- The identity of a document. -/
def id (d : Document) : DocumentId :=
  ⟨d.group, d.version, d.kind, d.namespaceName, d.name⟩

/-- Group and version as a manifest states them. -/
def apiVersion (d : Document) : String :=
  slashed d.group d.version

/-- The document has a name. -/
def isMaterialized (d : Document) : Bool :=
  d.name ≠ ""

/-- The document in another namespace. -/
def withNamespace (d : Document) (namespaceName : String) : Document :=
  { d with namespaceName }

/-- The document with one label set. -/
def withLabel (d : Document) (key value : String) : Document :=
  { d with labels := d.labels.insert key value }

/-- The document with several labels set. -/
def withLabels (d : Document) (entries : List (String × String)) : Document :=
  { d with labels := d.labels.insertAll entries }

/-- The document with one annotation set. -/
def withAnnotation (d : Document) (key value : String) : Document :=
  { d with annotations := d.annotations.insert key value }

/-- The document with another data tree. -/
def withData (d : Document) (data : Value) : Document :=
  { d with data }

/-- The documents are the same object. -/
def sameIdentity (d e : Document) : Bool :=
  d.id = e.id

end Document

end ManifestBundle
