import ManifestBundle.Rendering
import ManifestBundle.Schema
import ManifestBundle.Selector
import ManifestBundle.Toml.Document
import ManifestBundle.Toml.Printer

/-!
# Settings

The settings of the program are held by a TOML document (`Config.parse?`), which
`Config.text` writes. A setting that the document does not give has its usual value,
and keys that name no setting are passed over.
-/

namespace ManifestBundle

/-- The settings of the program. -/
structure Config where
  labelMatch : LabelMatch := .subset
  output : OutputFormat := .yaml
  /-- Validation stops at the first malformed document. -/
  failFast : Bool := true
  /-- Compressed manifests are read when directories are walked. -/
  includeGzip : Bool := true
  /-- Validation goes by the built-in schema, too. -/
  builtinSchema : Bool := true
  /-- The key paths that are required in addition, for each target. -/
  requiredKeys : List (String × List String) := []
deriving DecidableEq, Repr, Inhabited

namespace Config

/-- What can be wrong with settings that have been read. -/
inductive Problem where
  /-- A required key path is none. -/
  | requiredKeys (cause : DocumentError)
deriving DecidableEq

/-- The wording of a problem. -/
def Problem.message : Problem → String
  | .requiredKeys cause => s!"Invalid required_keys in config: {cause.message}"

/-- The schema that the settings describe. -/
def schema (c : Config) : Except Problem Schema :=
  let start := if c.builtinSchema then Schema.builtin else Schema.empty
  match start.requireAll c.requiredKeys with
  | (s, .ok ()) => .ok s
  | (_, .error e) => .error (.requiredKeys e)

/-- The name that a value spells, as a text or as the only key of a table with
    nothing in it. -/
def spelledName? : Toml.Value → Option String
  | .text s => some s
  | .table [(name, .table [])] | .table [(name, .array [])] => some name
  | _ => none

/-- The mode of comparing labels that a value spells. -/
def labelMatchOf? (v : Toml.Value) : Option LabelMatch := do
  let name ← spelledName? v
  if name = LabelMatch.subset.name then some .subset
  else if name = LabelMatch.exact.name then some .exact
  else none

/-- The format that a value spells. -/
def outputOf? (v : Toml.Value) : Option OutputFormat := do
  let name ← spelledName? v
  if name = OutputFormat.yaml.name then some .yaml
  else if name = OutputFormat.json.name then some .json
  else none

/-- The truth value. -/
def boolOf? : Toml.Value → Option Bool
  | .bool b => some b
  | _ => none

/-- The text. -/
def textOf? : Toml.Value → Option String
  | .text s => some s
  | _ => none

/-- The texts in an array. -/
def textsOf? : Toml.Value → Option (List String)
  | .array vs => vs.mapM textOf?
  | _ => none

/-- The lists of texts in a table. -/
def requiredKeysOf? : Toml.Value → Option (List (String × List String))
  | .table es => es.mapM fun (key, v) => (textsOf? v).map fun texts => (key, texts)
  | _ => none

/-- The setting that a document gives, or its usual value. -/
def setting? {α : Type} (es : List (String × Toml.Value)) (key : String)
    (read? : Toml.Value → Option α) (usual : α) : Option α :=
  match es.lookup key with
  | none => some usual
  | some v => read? v

/-- The settings in a text; `none` if it is no TOML document or gives a setting a
    value of another type. -/
def parse? (text : String) : Option Config := do
  let es ← Toml.parse? text.toList
  return {
    labelMatch := ← setting? es "label_match" labelMatchOf? .subset
    output := ← setting? es "output" outputOf? .yaml
    failFast := ← setting? es "fail_fast" boolOf? true
    includeGzip := ← setting? es "include_gzip" boolOf? true
    builtinSchema := ← setting? es "builtin_schema" boolOf? true
    requiredKeys := ← setting? es "required_keys" requiredKeysOf? [] }

/-- A truth value in a document. -/
def boolText (b : Bool) : List Char :=
  (if b then "true" else "false").toList

/-- The document of the settings. -/
def text (c : Config) : String :=
  String.ofList (Toml.printPair "label_match" (Toml.printText c.labelMatch.name) ++
    Toml.printPair "output" (Toml.printText c.output.name) ++
    Toml.printPair "fail_fast" (boolText c.failFast) ++
    Toml.printPair "include_gzip" (boolText c.includeGzip) ++
    Toml.printPair "builtin_schema" (boolText c.builtinSchema) ++
    "\n[required_keys]\n".toList ++
    c.requiredKeys.flatMap fun (key, texts) => Toml.printPair key (Toml.printTexts texts))

end Config

end ManifestBundle
