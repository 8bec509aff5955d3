import ManifestBundle.DocumentError

/-!
# The document that a manifest describes

A manifest is a map. The identity of the document it describes is read from
`apiVersion`, `kind` and `metadata`, and the whole manifest is its data tree.
Scalars stand for their text, and a missing part of the identity is left empty.

A manifest is malformed if it is not a map, its metadata are neither absent, null
nor a map, or the labels or annotations in them are neither absent, null nor a map
of texts. Of several defects the first in this order is reported.
-/

namespace ManifestBundle.Document

/-- The text of a scalar in a map; empty if there is none. -/
def fieldText (v : Value) (key : String) : String :=
  ((v.get? key).bind Value.scalarText?).getD ""

/-- The group and the version in a text, parted by its last slash. Without a slash
    the group is empty. -/
def splitApiVersion (text : String) : String × String :=
  match Text.cutLast? '/' text.toList with
  | some (group, version) => (String.ofList group, String.ofList version)
  | none => ("", text)

/-- The texts in the map at `field` of the metadata of the named document. -/
def textField (metadata : Value) (field name : String) : Except DocumentError KeyValues :=
  match metadata.get? field with
  | none | some .null => .ok .empty
  | some (.map entries) => do
    let texts ← entries.mapM fun (key, v) =>
      match v with
      | .text s => .ok (key, s)
      | v => .error (.malformed name (.entryNotText field key v.kindName))
    return .ofEntries texts
  | some v => .error (.malformed name (.fieldNotMap field v.kindName))

/-- The document that a manifest describes. -/
def ofValue (v : Value) : Except DocumentError Document := do
  if !v.isMap then throw (.malformed "" (.rootNotMap v.kindName))
  let metadata := (v.get? "metadata").getD .null
  let name := fieldText metadata "name"
  if !(metadata.isMap || metadata.isNull) then
    throw (.malformed name (.metadataNotMap metadata.kindName))
  let (group, version) := splitApiVersion (fieldText v "apiVersion")
  let labels ← textField metadata "labels" name
  let annotations ← textField metadata "annotations" name
  return {
    group, version, name, labels, annotations
    kind := fieldText v "kind"
    namespaceName := fieldText metadata "namespace"
    data := v }

end ManifestBundle.Document
