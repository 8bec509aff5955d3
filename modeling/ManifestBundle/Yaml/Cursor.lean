/-!
# Reading positions in a YAML stream

A stream is read as lists of characters. The three common spellings of a line end
and the next line character are one line break, the newline (`unifyBreaks`), so
that a line break is always one character: a newline, a line separator or a
paragraph separator.

A cursor is a place in a stream: the characters that follow, and where they stand.
The column is what block structure is told by; the index bounds how far a key may
reach.
-/

namespace ManifestBundle.Yaml

/-- The text with every line end and next line character as a newline. -/
def unifyBreaks : List Char → List Char
  | '\r' :: '\n' :: cs => '\n' :: unifyBreaks cs
  | c :: cs => (if c = '\r' || c = '\u0085' then '\n' else c) :: unifyBreaks cs
  | [] => []

/-- A line break. -/
def isBreak (c : Char) : Bool :=
  c = '\n' || c = '\u2028' || c = '\u2029'

/-- A blank: a space or a tab. -/
def isBlank (c : Char) : Bool :=
  c = ' ' || c = '\t'

/-- White space: a blank or a line break. -/
def isWhite (c : Char) : Bool :=
  isBlank c || isBreak c

/-- The text is at its end or goes on with white space. -/
def atWhite : List Char → Bool
  | [] => true
  | c :: _ => isWhite c

/-- The text is at its end or at the end of a line. -/
def atLineEnd : List Char → Bool
  | [] => true
  | c :: _ => isBreak c

/-- Three hyphens or three dots that stand alone: what parts documents at the start
    of a line. -/
def atDocumentMark : List Char → Bool
  | '-' :: '-' :: '-' :: cs => atWhite cs
  | '.' :: '.' :: '.' :: cs => atWhite cs
  | _ => false

/-- Where a character stands. -/
structure Mark where
  /-- The number of characters before it. -/
  index : Nat := 0
  /-- The number of line breaks before it. -/
  line : Nat := 0
  /-- The number of characters before it in its line. -/
  column : Nat := 0
deriving DecidableEq, Repr, Inhabited

/-- The place behind a character. -/
def Mark.next (m : Mark) (c : Char) : Mark :=
  if isBreak c then ⟨m.index + 1, m.line + 1, 0⟩ else ⟨m.index + 1, m.line, m.column + 1⟩

/-- A place in a stream. -/
structure Cursor where
  /-- The characters that follow. -/
  rest : List Char
  /-- Where they stand. -/
  mark : Mark := {}
deriving Repr, Inhabited

namespace Cursor

/-- The column of the next character. -/
def column (k : Cursor) : Nat :=
  k.mark.column

/-- The place behind the next character. -/
def next (k : Cursor) : Cursor :=
  match k.rest with
  | [] => k
  | c :: cs => ⟨cs, k.mark.next c⟩

/-- The place `n` characters further on. -/
def skip : Nat → Cursor → Cursor
  | 0, k => k
  | n + 1, k => skip n k.next

/-- The characters up to the first one that is not of a class, and the place behind
    them. -/
def span (p : Char → Bool) (k : Cursor) : List Char × Cursor :=
  let cs := k.rest.takeWhile p
  (cs, k.skip cs.length)

/-- The place behind all characters of a class. -/
def skipWhile (p : Char → Bool) (k : Cursor) : Cursor :=
  (k.span p).2

/-- A document mark is at the start of a line here. -/
def atDocumentMark (k : Cursor) : Bool :=
  k.column == 0 && Yaml.atDocumentMark k.rest

end Cursor

end ManifestBundle.Yaml
