import ManifestBundle.Text.Digit
import ManifestBundle.Text.Unseen

/-!
# Quoted names

Names, paths and nested messages stand in error messages between double quotes,
written so that every character can be told apart on paper: the quote and the
backslash get a backslash before them, the line characters their short escapes,
and a character that is not seen, or that would attach itself to its neighbour,
its code point in braces.
-/

namespace ManifestBundle.Text

/-- How one character stands between double quotes. -/
def quotedChar (c : Char) : List Char :=
  match c with
  | '\x00' => ['\\', '0']
  | '\t' => ['\\', 't']
  | '\n' => ['\\', 'n']
  | '\r' => ['\\', 'r']
  | '"' => ['\\', '"']
  | '\\' => ['\\', '\\']
  | c =>
    if ' ' ≤ c && c ≤ '~' then [c]
    else if c < ' ' || inRanges combining c.toNat || inRanges unseen c.toNat then
      ['\\', 'u', '\x7b'] ++ hex c.toNat ++ ['\x7d']
    else [c]

/-- A text between double quotes. -/
def quoted (s : String) : String :=
  String.ofList ('"' :: s.toList.flatMap quotedChar ++ ['"'])

end ManifestBundle.Text
