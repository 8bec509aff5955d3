import ManifestBundle.Bundle
import ManifestBundle.Document.Lookup
import ManifestBundle.Schema

/-!
# Validation

A document is valid under a schema if it has a kind, a version and a name, and a
value at every path that the schema requires of it. A *placeholder*, marked by an
annotation, may lack the name. The first requirement that is not met is reported.

A bundle is validated document by document, either collecting all violations
(`violations`) or stopping at the first (`validateBundle`).
-/

namespace ManifestBundle

/-- The annotation that marks a placeholder. -/
def Document.placeholderAnnotation : String :=
  "bundlequill.io/placeholder"

/-- The document is a template that need not have a name. -/
def Document.isPlaceholder (d : Document) : Bool :=
  match d.annotations.get? Document.placeholderAnnotation with
  | some v => v.toList.map Char.toLower = ['t', 'r', 'u', 'e']
  | none => false

namespace Schema

/-- The first required path at which the document has no value. -/
def missingPath? (s : Schema) (d : Document) : Option KeyPath :=
  (s.requiredPaths d).find? fun path => (d.data.resolve? path.segments).isNone

/-- What is wrong with the document, if anything. -/
def defect? (s : Schema) (d : Document) : Option Defect :=
  if d.kind = "" then some .missingKind
  else if d.version = "" then some (.missingVersion d.kind)
  else if !d.isMaterialized && !d.isPlaceholder then some (.missingName d.kind)
  else (s.missingPath? d).map (.missingKey d.kind)

/-- Validates one document. -/
def validate (s : Schema) (d : Document) : Except DocumentError Unit :=
  match s.defect? d with
  | some defect => .error (.malformed d.name defect)
  | none => .ok ()

/-- The violations of all documents, in the order of the bundle. -/
def violations (s : Schema) (b : Bundle) : List DocumentError :=
  b.documents.filterMap fun d =>
    match s.validate d with
    | .ok () => none
    | .error e => some e

/-- Validates the documents in order up to the first violation. -/
def validateBundle (s : Schema) (b : Bundle) : Except DocumentError Unit :=
  b.documents.forM s.validate

end Schema

end ManifestBundle
