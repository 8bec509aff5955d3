import ManifestBundle.Text.Digit
import ManifestBundle.Yaml.Token.Plain

/-!
# Quoted scalars

Between single quotes a doubled quote stands for one quote and nothing else is
special. Between double quotes a backslash starts an escape, and one at the end of
a line joins the next line to it. In both, white space with line breaks is folded
as in a plain scalar. A document mark at the start of a line, or the end of the
stream, inside the quotes is an error.
-/

namespace ManifestBundle.Yaml

/-- A stretch of single quoted text without white space: what it stands for, and the
    place of the closing quote, of white space or of the end. -/
def singleWord : Nat → Cursor → List Char × Cursor
  | 0, k => ([], k)
  | fuel + 1, k =>
    match k.rest with
    | [] => ([], k)
    | c :: cs =>
      if isWhite c then ([], k)
      else if c = '\'' then
        if cs.head? = some '\'' then
          let (w, k) := singleWord fuel (k.skip 2)
          ('\'' :: w, k)
        else ([], k)
      else
        let (w, k) := singleWord fuel k.next
        (c :: w, k)

/-- The escapes of one letter and the characters that they stand for. -/
def escapes : List (Char × Char) :=
  [('0', '\x00'), ('a', '\x07'), ('b', '\x08'), ('t', '\t'), ('\t', '\t'), ('n', '\n'),
    ('v', '\x0b'), ('f', '\x0c'), ('r', '\r'), ('e', '\x1b'), (' ', ' '), ('"', '"'), ('/', '/'),
    ('\\', '\\'), ('N', '\u0085'), ('_', '\u00a0'), ('L', '\u2028'), ('P', '\u2029')]

/-- The number of hexadecimal digits behind the letter of an escape. -/
def escapeWidth? (c : Char) : Option Nat :=
  if c = 'x' then some 2 else if c = 'u' then some 4 else if c = 'U' then some 8 else none

/-- The character that an escape stands for, from the text behind the backslash, and
    the number of characters of that text it takes. -/
def escape? : List Char → Option (Char × Nat)
  | [] => none
  | c :: cs =>
    match escapes.lookup c with
    | some d => some (d, 1)
    | none => do
      let width ← escapeWidth? c
      let digits := cs.take width
      if digits.length < width then none
      let d ← Text.charOfHex? digits
      return (d, width + 1)

/-- A stretch of double quoted text without white space: what it stands for, the
    place of the closing quote, of white space or of the end, and whether a
    backslash at the end of a line ends it. -/
def doubleWord : Nat → Cursor → Option (List Char × Cursor × Bool)
  | 0, _ => none
  | fuel + 1, k =>
    match k.rest with
    | [] => some ([], k, false)
    | c :: cs =>
      if isWhite c || c = '"' then some ([], k, false)
      else if c = '\\' then
        if !cs.isEmpty && atLineEnd cs then some ([], k.skip 2, true)
        else do
          let (d, taken) ← escape? cs
          let (w, k, joined) ← doubleWord fuel (k.skip (taken + 1))
          return (d :: w, k, joined)
      else do
        let (w, k, joined) ← doubleWord fuel k.next
        return (c :: w, k, joined)

/-- Which quotes a scalar stands between. -/
inductive Quote where
  | single
  | double
deriving DecidableEq, Repr

/-- The character of a quote. -/
def Quote.char : Quote → Char
  | .single => '\''
  | .double => '"'

/-- A stretch of quoted text. -/
def Quote.word? (q : Quote) (fuel : Nat) (k : Cursor) : Option (List Char × Cursor × Bool) :=
  match q with
  | .single =>
    let (w, k) := singleWord fuel k
    some (w, k, false)
  | .double => doubleWord fuel k

/-- The quoted scalar behind its opening quote, and the place behind its closing
    quote. -/
def quotedRest (q : Quote) : Nat → Cursor → Option (List Char × Cursor)
  | 0, _ => none
  | fuel + 1, k =>
    if k.atDocumentMark || k.rest.isEmpty then none
    else do
      let (w, k, joined) ← q.word? fuel k
      if k.rest.head? = some q.char then return (w, k.next)
      let (gap, k) := k.span isWhite
      let (text, k) ← quotedRest q fuel k
      return (w ++ (if joined then gap.filter isBreak else foldGap gap) ++ text, k)

/-- The quoted scalar here and the place behind it. -/
def quoted? (q : Quote) (fuel : Nat) (k : Cursor) : Option (List Char × Cursor) :=
  quotedRest q fuel k.next

end ManifestBundle.Yaml
