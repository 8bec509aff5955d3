import ManifestBundle.Yaml.Cursor

/-!
# Tokens of a YAML stream

The tokens that the events of a stream are told from. Block structure, which the
text shows by columns, is spelled out: a block collection stands between its start
token and `blockEnd`, and a `key` token stands in front of every key, also one that
the text marks by nothing but the colon behind it.
-/

namespace ManifestBundle.Yaml

/-- A tag, as the octets of its text: escapes in a tag can stand for any octets. -/
structure Tag where
  octets : List UInt8
deriving DecidableEq, Repr, Inhabited

/-- The octets of a text. -/
def Tag.ofText (s : String) : Tag :=
  ⟨s.toUTF8.toList⟩

/-- A token. -/
inductive Token where
  | version (major minor : Nat)
  /-- A directive that lets a handle stand for the start of a tag. -/
  | tagHandle (handle : List Char) (start : Tag)
  | documentStart
  | documentEnd
  | blockSequenceStart
  | blockMappingStart
  | blockEnd
  | flowSequenceStart
  | flowSequenceEnd
  | flowMappingStart
  | flowMappingEnd
  | blockEntry
  | flowEntry
  | key
  | value
  | alias (name : List Char)
  | anchor (name : List Char)
  /-- A tag; without a handle the suffix is all of it. -/
  | tag (handle : List Char) (suffix : Tag)
  /-- A scalar; a plain one stands without quotes or indicators. -/
  | scalar (text : List Char) (isPlain : Bool)
  | streamEnd
deriving DecidableEq, Repr, Inhabited

end ManifestBundle.Yaml
