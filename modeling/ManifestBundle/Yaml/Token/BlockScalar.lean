import ManifestBundle.Text.Digit
import ManifestBundle.Yaml.Cursor

/-!
# Block scalars

A block scalar is the indented lines behind a header: literal behind a bar, folded
behind a greater-than sign. The header may say by how much the lines are indented
and what becomes of the line breaks at their end; else the first line that is not
empty gives the indentation, and one final line break is kept.

In a folded scalar a newline between two lines that do not start with a blank
becomes a space, or goes if empty lines follow it.
-/

namespace ManifestBundle.Yaml

/-- What becomes of the line breaks at the end of a block scalar. -/
inductive Chomping where
  /-- They are dropped. -/
  | strip
  /-- The first is kept. -/
  | clip
  /-- They are kept. -/
  | keep
deriving DecidableEq, Repr

/-- The chomping that a header character asks for. -/
def Chomping.ofChar? (c : Char) : Option Chomping :=
  if c = '+' then some .keep else if c = '-' then some .strip else none

/-- An indicator of a header, its chomping or its indentation, which is not zero. -/
def headerIndicator? (c : Char) : Option (Chomping ⊕ Nat) :=
  match Chomping.ofChar? c with
  | some chomping => some (.inl chomping)
  | none => if Text.isDigit c then some (.inr (c.toNat - '0'.toNat)) else none

/-- The indicators at the front of a header: at most one of either kind, in either
    order. Gives the chomping, the indentation and the number of characters. -/
def headerIndicators : List Char → Chomping × Option Nat × Nat
  | c :: cs =>
    match headerIndicator? c, (cs.head?).bind headerIndicator? with
    | some (.inl chomping), some (.inr n) => (chomping, some n, 2)
    | some (.inl chomping), _ => (chomping, none, 1)
    | some (.inr n), some (.inl chomping) => (chomping, some n, 2)
    | some (.inr n), _ => (.clip, some n, 1)
    | none, _ => (.clip, none, 0)
  | [] => (.clip, none, 0)

/-- The place behind the blanks and the comment at the end of a line, and behind the
    line break; `none` if something else follows. -/
def lineRest? (k : Cursor) : Option Cursor :=
  let k := k.skipWhile isBlank
  let k := if k.rest.head? = some '#' then k.skipWhile (!isBreak ·) else k
  if atLineEnd k.rest then some k.next else none

/-- The line breaks of the empty lines here, the greatest column that their spaces
    reach, and the place behind the spaces of the next line. A line is indented by
    at most `indent` spaces, or any number without it; a tab in their place is an
    error. -/
def emptyLines (indent : Option Nat) : Nat → Cursor → Option (List Char × Nat × Cursor)
  | 0, _ => none
  | fuel + 1, k =>
    let spaces := (k.rest.takeWhile (· = ' ')).length
    let taken := match indent with
      | some n => min spaces (n - k.column)
      | none => spaces
    let k := k.skip taken
    let isShort := match indent with
      | some n => decide (k.column < n)
      | none => true
    match k.rest with
    | [] => some ([], k.column, k)
    | c :: _ =>
      if isShort && c = '\t' then none
      else if isBreak c then do
        let (breaks, reached, behind) ← emptyLines indent fuel k.next
        return (c :: breaks, max k.column reached, behind)
      else some ([], k.column, k)

/-- How the text so far ends, in front of the next line. -/
structure BlockScalar.Seam where
  /-- The line break of the last line. -/
  lineBreak : List Char := []
  /-- The line breaks of the empty lines behind it. -/
  emptyBreaks : List Char := []
  /-- The last line starts with a blank. -/
  afterBlank : Bool := false

/-- The line breaks in front of a further line. -/
def BlockScalar.Seam.text (s : BlockScalar.Seam) (folded beforeBlank : Bool) : List Char :=
  if folded && s.lineBreak = ['\n'] && !s.afterBlank && !beforeBlank then
    (if s.emptyBreaks.isEmpty then [' '] else s.emptyBreaks)
  else s.lineBreak ++ s.emptyBreaks

/-- The line breaks at the end of the scalar. -/
def BlockScalar.Seam.tail (s : BlockScalar.Seam) : Chomping → List Char
  | .strip => []
  | .clip => s.lineBreak
  | .keep => s.lineBreak ++ s.emptyBreaks

/-- The lines from here on that are indented as the scalar is. -/
def blockLines (folded : Bool) (chomping : Chomping) (indent : Nat) :
    Nat → BlockScalar.Seam → Cursor → Option (List Char × Cursor)
  | 0, _, _ => none
  | fuel + 1, seam, k =>
    if k.column ≠ indent || k.rest.isEmpty then some (seam.tail chomping, k)
    else do
      let startsBlank := (k.rest.head?).any isBlank
      let (line, k) := k.span (!isBreak ·)
      let lineBreak := k.rest.take 1
      let (emptyBreaks, _, k) ← emptyLines (some indent) fuel k.next
      let (text, k) ← blockLines folded chomping indent fuel ⟨lineBreak, emptyBreaks, startsBlank⟩ k
      return (seam.text folded startsBlank ++ line ++ text, k)

/-- The block scalar here and the place behind it. `margin` is the first column to
    the right of the block collection that the scalar stands in. -/
def blockScalar? (folded : Bool) (margin fuel : Nat) (k : Cursor) :
    Option (List Char × Cursor) := do
  let k := k.next
  let (chomping, increment, taken) := headerIndicators k.rest
  if increment = some 0 then none
  let k ← lineRest? (k.skip taken)
  let given := increment.map (margin - 1 + ·)
  let (breaks, reached, k) ← emptyLines given fuel k
  -- Without an indication the empty lines count as well as the first that is not empty.
  let indent := given.getD (max reached (max margin 1))
  blockLines folded chomping indent fuel { emptyBreaks := breaks } k

end ManifestBundle.Yaml
