import ManifestBundle.Document.Basic
import ManifestBundle.Json
import ManifestBundle.Yaml.Printer

/-!
# Rendering

Values and documents as text, in YAML or in JSON. Documents in YAML are a stream,
each behind a mark of its own; in JSON they are an array.
-/

namespace ManifestBundle

/-- The formats in which values are rendered. -/
inductive OutputFormat where
  | yaml
  | json
deriving DecidableEq, Repr, Inhabited

namespace OutputFormat

/-- The name of a format. -/
def name : OutputFormat → String
  | .yaml => "yaml"
  | .json => "json"

/-- A text that names no format, with its ASCII letters in lower case. -/
structure Unknown where
  text : String
deriving DecidableEq, Repr

/-- The wording of the error. -/
def Unknown.message (e : Unknown) : String :=
  s!"Unknown output format '{e.text}', expected yaml or json"

/-- The format that a text names, in upper or lower case. -/
def parse (text : String) : Except Unknown OutputFormat :=
  let lowered := String.ofList (text.toList.map Char.toLower)
  if lowered = "yaml" || lowered = "yml" then .ok .yaml
  else if lowered = "json" then .ok .json
  else .error ⟨lowered⟩

end OutputFormat

/-- The text of a value; it ends with a newline. -/
def Value.render (v : Value) : OutputFormat → String
  | .yaml => String.ofList (Yaml.print v)
  | .json => String.ofList (Json.print v ++ ['\n'])

/-- The text of documents. -/
def Document.renderAll (ds : List Document) : OutputFormat → String
  | .yaml => String.join (ds.map fun d => "---\n" ++ d.data.render .yaml)
  | .json => (Value.sequence (ds.map Document.data)).render .json

end ManifestBundle
