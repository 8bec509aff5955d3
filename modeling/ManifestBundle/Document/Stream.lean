import ManifestBundle.Document.Manifest
import ManifestBundle.Yaml.Data
import ManifestBundle.Yaml.Token.Lexer
import ManifestBundle.Yaml.Tree

/-!
# Streams of documents

A text holds a stream of YAML documents. Reading it is all or nothing: it gives the
data trees, or the documents that they describe, of all of them in order, or what is
wrong with one of them. Documents that are null are skipped.

First the stream is read to its end, and only then the manifests are looked at; they
are counted among those that are not null.
-/

namespace ManifestBundle

/-- What can be wrong with a stream. Positions start at one. -/
inductive StreamError where
  /-- The document at the position is no well-formed document. -/
  | unreadable (position : Nat)
  /-- The document at the position has a collection as a key. -/
  | unsupported (position : Nat)
  /-- The manifest at the position, not counting nulls, is malformed. -/
  | invalidManifest (position : Nat) (cause : DocumentError)
deriving DecidableEq

/-- The wording of an error. -/
def StreamError.message : StreamError → String
  | .unreadable n => s!"Failed to parse YAML document {n}"
  | .unsupported n => s!"Unsupported content in YAML document {n}: map keys must be scalars"
  | .invalidManifest n cause => s!"Invalid manifest in YAML document {n}: {cause.message}"

/-- The documents of a stream; `none` stands for one that is not well formed. -/
def Yaml.nodes (text : String) : List (Option Yaml.Node) :=
  (Yaml.documentEvents (Yaml.tokens text.toList)).map fun es => es.bind Yaml.Node.ofEvents?

/-- The data trees of the documents that are not null, the first of which is at the
    given position. -/
def Value.ofNodes (position : Nat) : List (Option Yaml.Node) → Except StreamError (List Value)
  | [] => .ok []
  | none :: _ => .error (.unreadable position)
  | some n :: rest =>
    if n.isNull then ofNodes (position + 1) rest
    else match ofNode? n with
      | none => .error (.unsupported position)
      | some v => (ofNodes (position + 1) rest).map (v :: ·)

/-- The data trees in a text. -/
def Value.parseStream (text : String) : Except StreamError (List Value) :=
  ofNodes 1 (Yaml.nodes text)

/-- The documents that manifests describe, the first of which is at the given
    position. -/
def Document.ofValues (position : Nat) : List Value → Except StreamError (List Document)
  | [] => .ok []
  | v :: vs =>
    match ofValue v with
    | .error e => .error (.invalidManifest position e)
    | .ok d => (ofValues (position + 1) vs).map (d :: ·)

/-- The documents in a text. -/
def Document.parseStream (text : String) : Except StreamError (List Document) := do
  ofValues 1 (← Value.parseStream text)

end ManifestBundle
