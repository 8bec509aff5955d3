import ManifestBundle.Yaml.Cursor

/-!
# Plain scalars

A plain scalar is a sequence of words with gaps of white space between them. A word
ends before white space and before a colon with white space behind it; inside a
flow collection also before the characters that structure it. The scalar ends
where no word follows: at such a place, at a comment, at a document mark, or, in
block context, at a line that does not stand to the right of the collection.

A gap is *folded*: without a line break it stays as it is, and of its line breaks
a single newline becomes a space and the first of several newlines is dropped.
-/

namespace ManifestBundle.Yaml

/-- The text that a gap of white space stands for. -/
def foldGap (gap : List Char) : List Char :=
  match gap.filter isBreak with
  | [] => gap
  | ['\n'] => [' ']
  | '\n' :: more => more
  | breaks => breaks

/-- A character that structures a flow collection and so ends a word in it. -/
def isFlowIndicator (c : Char) : Bool :=
  c = ',' || c = '[' || c = ']' || c = '\x7b' || c = '\x7d'

/-- In a flow collection a colon stands directly before one of its indicators. -/
def atGluedColon : List Char → Bool
  | ':' :: c :: _ => isFlowIndicator c || c = '?'
  | _ => false

/-- A word ends here, or none begins. -/
def atWordEnd (inFlow : Bool) (cs : List Char) : Bool :=
  match cs with
  | [] => true
  | c :: rest => isWhite c || (c = ':' && atWhite rest) || (inFlow && isFlowIndicator c)

/-- The word at the front of a text; `none` if a colon in it is glued to an
    indicator. -/
def word? (inFlow : Bool) : List Char → Option (List Char)
  | [] => some []
  | c :: cs =>
    if isWhite c then some []
    else if inFlow && atGluedColon (c :: cs) then none
    else if atWordEnd inFlow (c :: cs) then some []
    else (word? inFlow cs).map (c :: ·)

/-- A tab stands left of the margin in a line of the gap other than the first. -/
def hasTabBefore (margin : Nat) (gap : List Char) : Bool :=
  let rec inLines (column : Nat) : List Char → Bool
    | [] => false
    | c :: cs =>
      if isBreak c then inLines 0 cs
      else (c == '\t' && decide (column < margin)) || inLines (column + 1) cs
  inLines 0 (gap.dropWhile isBlank)

/-- The scalar behind a word of it, the place where it ends, and whether a line ends
    before that place. -/
def plainRest (inFlow : Bool) (margin : Nat) :
    Nat → Cursor → Option (List Char × Cursor × Bool)
  | 0, _ => none
  | fuel + 1, k =>
    let (gap, behind) := k.span isWhite
    if hasTabBefore margin gap then none
    else if gap.isEmpty || (!inFlow && decide (behind.column < margin)) || behind.atDocumentMark ||
        behind.rest.head? == some '#' then
      some ([], behind, gap.any isBreak)
    else match word? inFlow behind.rest with
      | none => none
      | some [] => some ([], behind, gap.any isBreak)
      | some w => do
        let (text, k, newLine) ← plainRest inFlow margin fuel (behind.skip w.length)
        return (foldGap gap ++ w ++ text, k, newLine)

/-- The plain scalar here, the place where it ends, and whether a line ends before
    that place. `margin` is the first column to the right of the block collection. -/
def plain? (inFlow : Bool) (margin fuel : Nat) (k : Cursor) :
    Option (List Char × Cursor × Bool) := do
  let w ← word? inFlow k.rest
  let (text, k, newLine) ← plainRest inFlow margin fuel (k.skip w.length)
  return (w ++ text, k, newLine)

end ManifestBundle.Yaml
