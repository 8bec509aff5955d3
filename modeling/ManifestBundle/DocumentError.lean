import ManifestBundle.KeyPath.Parser
import ManifestBundle.Selector
import ManifestBundle.Text.Quoted

/-!
# What can be wrong with documents

The errors of queries, look-ups and validation, as causes that carry what a
diagnosis needs. The wording of each is in `message`.
-/

namespace ManifestBundle

/-- What makes a document malformed. -/
inductive Defect where
  /-- The manifest is of this kind and not a map. -/
  | rootNotMap (found : String)
  /-- The metadata are of this kind and not a map. -/
  | metadataNotMap (found : String)
  /-- A map of texts in the metadata is of this kind and not a map. -/
  | fieldNotMap (field found : String)
  /-- The value of a key in such a map is of this kind and not a text. -/
  | entryNotText (field key found : String)
  | missingKind
  | missingVersion (kind : String)
  | missingName (kind : String)
  /-- The data tree has nothing at a path that the kind requires. -/
  | missingKey (kind : String) (path : KeyPath)
deriving DecidableEq, Repr

/-- The wording of a defect. -/
def Defect.message : Defect → String
  | .rootNotMap found => s!"document root must be a map, found {found}"
  | .metadataNotMap found => s!"metadata must be a map, found {found}"
  | .fieldNotMap field found => s!"metadata.{field} must be a map, found {found}"
  | .entryNotText field key found => s!"metadata.{field}.{key} must be a string, found {found}"
  | .missingKind => "missing kind"
  | .missingVersion kind => s!"{kind} is missing apiVersion"
  | .missingName kind => s!"{kind} is missing metadata.name"
  | .missingKey kind path => s!"{kind} requires data key {path.text}"

/-- What can be wrong with documents. -/
inductive DocumentError where
  /-- A selector selects no document where one is asked for. -/
  | notFound (selector : Selector)
  /-- A selector selects several documents where one is asked for. -/
  | notUnique (selector : Selector) (count : Nat)
  /-- A selector selects too few documents for the position asked for. -/
  | outOfRange (selector : Selector) (index matched : Nat)
  /-- The data tree of the named document has nothing of the wanted shape at a path. -/
  | keyNotFound (document : String) (path : KeyPath)
  /-- The named document is malformed. -/
  | malformed (document : String) (defect : Defect)
  /-- A text is not a list of labels or annotations. -/
  | invalidLabels (text : String) (cause : KeyValues.EntryError)
  /-- A text is not a key path. -/
  | invalidPath (text : String) (cause : KeyPath.SyntaxError)
deriving DecidableEq

/-- The wording of an error. -/
def DocumentError.message : DocumentError → String
  | .notFound s => s!"document filtered by selector {s.text} found no documents"
  | .notUnique s _ => s!"document filtered by selector {s.text} found more than one document"
  | .outOfRange s index matched =>
    s!"document index {index} out of range for selector {s.text}: {matched} matched"
  | .keyNotFound document path =>
    s!"document {Text.quoted document} cannot retrieve data key {Text.quoted path.text}"
  | .malformed document defect =>
    s!"document {Text.quoted document} is malformed: {Text.quoted defect.message}"
  | .invalidLabels text cause => s!"invalid selector {Text.quoted text}: {cause.message}"
  | .invalidPath text cause => s!"invalid key path {Text.quoted text}: {cause.message}"

end ManifestBundle
