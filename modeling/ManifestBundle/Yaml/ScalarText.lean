import ManifestBundle.Yaml.Scalar
import ManifestBundle.Yaml.Token.Quoted

/-!
# Spelling a text as a YAML scalar

A text is written plain if it is read back as a text then; between single quotes if
it would be read as something else or has a form that no plain scalar has; as a
literal block if it has several lines; and between double quotes, with escapes, if
it holds characters that cannot stand for themselves.
-/

namespace ManifestBundle.Yaml

/-! ## The form of a text -/

/-- A character that stands for itself in any scalar but a plain or quoted one, where
    line breaks do not. -/
def isPrintable (c : Char) : Bool :=
  let n := c.toNat
  n = 0x0a || (0x20 ≤ n && n ≤ 0x7e) || (0xa0 ≤ n && n ≤ 0xd7ff) ||
    (0xe000 ≤ n && n ≤ 0xfffd && n ≠ 0xfeff) || 0x10000 ≤ n

/-- A character that ends a line, in whatever spelling. -/
def endsLine (c : Char) : Bool :=
  isBreak c || c = '\r' || c = '\u0085'

/-- Two neighbours of the text are of the given classes. -/
def hasNeighbours (p q : Char → Bool) : List Char → Bool
  | a :: b :: cs => (p a && q b) || hasNeighbours p q (b :: cs)
  | _ => false

/-- The text starts with three hyphens or three dots. -/
def startsAsMark : List Char → Bool
  | '-' :: '-' :: '-' :: _ | '.' :: '.' :: '.' :: _ => true
  | _ => false

/-- The text starts with a character that no plain scalar starts with. -/
def startsAsIndicator : List Char → Bool
  | [] => false
  | c :: cs =>
    isFlowIndicator c ||
      ['#', '&', '*', '!', '|', '>', '\'', '"', '%', '@', '\x60'].contains c ||
      (['?', ':', '-'].contains c && atWhite cs)

/-- A colon in the text ends a plain scalar, or a number sign behind a space does. -/
def hasIndicator : List Char → Bool
  | [] => false
  | c :: cs =>
    (c = ':' && atWhite cs) || (c = ' ' && cs.head? = some '#') || hasIndicator cs

/-- The text has the form of a plain scalar. -/
def fitsPlain (cs : List Char) : Bool :=
  cs.all (fun c => isPrintable c && !isBreak c) && cs.head? ≠ some ' ' &&
    cs.getLast? ≠ some ' ' && !startsAsMark cs && !startsAsIndicator cs && !hasIndicator cs

/-- The text can be written between single quotes. -/
def fitsSingle (cs : List Char) : Bool :=
  cs.all isPrintable && !hasNeighbours (· = ' ') isBreak cs && !hasNeighbours isBreak (· = ' ') cs

/-- The text can be written as a literal block. -/
def fitsLiteral (cs : List Char) : Bool :=
  cs.all isPrintable && !hasNeighbours (· = ' ') isBreak cs && cs.getLast? ≠ some ' '

/-- A plain scalar of this spelling is not read as a text, or has the look of a number. -/
def isAmbiguous (cs : List Char) : Bool :=
  match plainNode? cs with
  | some (.text _) => isZeroPadded cs
  | _ => true

/-! ## Choosing a way -/

/-- The ways of writing a text. -/
inductive ScalarStyle where
  | plain
  | single
  | double
  | literal
deriving DecidableEq, Repr

/-- The way in which a text is written. -/
def ScalarStyle.of (cs : List Char) : ScalarStyle :=
  if cs.contains '\n' then (if fitsLiteral cs then .literal else .double)
  else if !isAmbiguous cs && fitsPlain cs then .plain
  else if fitsSingle cs then .single
  else .double

/-! ## Writing -/

/-- Spaces up to a column. -/
def pad (column : Nat) : List Char :=
  List.replicate column ' '

/-- The text with each line break followed by the indentation of the line behind it,
    if that line is not empty. `lineStart` says that the text starts a line. -/
def indentLines (indent : Nat) : (lineStart : Bool) → List Char → List Char
  | _, [] => []
  | lineStart, c :: cs =>
    if isBreak c then c :: indentLines indent true cs
    else (if lineStart then pad indent else []) ++ c :: indentLines indent false cs

/-- The text between single quotes. -/
def singleText (indent : Nat) (cs : List Char) : List Char :=
  let doubled := cs.flatMap fun c => if c = '\'' then ['\'', '\''] else [c]
  '\'' :: indentLines indent false doubled ++
    (if cs.getLast?.any isBreak then pad indent else []) ++ ['\'']

/-- The character between double quotes. -/
def doubleChar (c : Char) : List Char :=
  if isPrintable c && !isBreak c && c ≠ '"' && c ≠ '\\' then [c]
  else match escapes.find? fun (_, d) => d = c with
    | some (letter, _) => ['\\', letter]
    | none =>
      let digits (width : Nat) := (Text.paddedHex width c.toNat).map Char.toUpper
      if c.toNat < 0x100 then '\\' :: 'x' :: digits 2
      else if c.toNat < 0x10000 then '\\' :: 'u' :: digits 4
      else '\\' :: 'U' :: digits 8

/-- The text between double quotes. -/
def doubleText (cs : List Char) : List Char :=
  '"' :: cs.flatMap doubleChar ++ ['"']

/-- The header of a literal block, which says that two spaces of its lines are
    indentation if the text itself starts with white space, and what becomes of the
    line breaks at its end. -/
def literalHeader (cs : List Char) : List Char :=
  let hint := if (cs.head?).any fun c => c = ' ' || isBreak c then ['2'] else []
  let chomping := match cs.reverse with
    | c :: more =>
      if !isBreak c then ['-']
      else if more.isEmpty || (more.head?).any isBreak then ['+']
      else []
    | [] => ['-']
  '|' :: hint ++ chomping

/-- The text as a literal block. -/
def literalText (indent : Nat) (cs : List Char) : List Char :=
  literalHeader cs ++ '\n' :: indentLines indent true cs

/-- The spelling of a text whose further lines are indented by the given number of
    spaces. -/
def scalarText (indent : Nat) (cs : List Char) : List Char :=
  match ScalarStyle.of cs with
  | .plain => cs
  | .single => singleText indent cs
  | .double => doubleText cs
  | .literal => literalText indent cs

end ManifestBundle.Yaml
