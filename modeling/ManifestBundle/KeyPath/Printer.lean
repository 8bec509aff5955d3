import ManifestBundle.KeyPath.Basic
import ManifestBundle.Text.Digit

/-!
# The text of a key path

A key is written as it is, with a dot before it unless it comes first. A key that
would be read as something else that way (it is empty, all digits, or holds a dot,
a bracket or a quote) is written in brackets and single quotes, where a backslash
goes before each quote and each backslash. An index is written in brackets.
-/

namespace ManifestBundle.KeyPath

/-- The characters that cannot stand in a key written as it is. -/
def isReserved (c : Char) : Bool :=
  c == '.' || c == '[' || c == ']' || c == '\''

/-- The key is written in brackets and quotes. -/
def needsQuotes (key : List Char) : Bool :=
  key.all Text.isDigit || key.any isReserved

/-- How one character of a key stands between single quotes. -/
def escape (c : Char) : List Char :=
  if c = '\'' || c = '\\' then ['\\', c] else [c]

/-- A segment, `first` telling whether the path starts with it. -/
def segmentChars (first : Bool) : Segment → List Char
  | .index i => '[' :: Nat.toDigits 10 i.toNat ++ [']']
  | .key k =>
    if needsQuotes k.toList then
      ['[', '\''] ++ k.toList.flatMap escape ++ ['\'', ']']
    else if first then k.toList
    else '.' :: k.toList

/-- The characters of a path. -/
def chars (p : KeyPath) : List Char :=
  match p.segments with
  | [] => []
  | s :: rest => segmentChars true s ++ rest.flatMap (segmentChars false)

/-- The text of a path. -/
def text (p : KeyPath) : String :=
  String.ofList p.chars

end ManifestBundle.KeyPath
