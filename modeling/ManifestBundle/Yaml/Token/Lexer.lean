import ManifestBundle.Yaml.Admission
import ManifestBundle.Yaml.Token.BlockScalar
import ManifestBundle.Yaml.Token.Property
import ManifestBundle.Yaml.Token.Quoted

/-!
# From characters to tokens

The lexer reads one token at a time. Two things make it more than a sequence of
scalars and indicators:

* in block context the column of a token opens and closes block collections; the
  *margin* is the first column to the right of the innermost one;
* whether a scalar or a flow collection is a key shows only at the colon behind it.
  So the lexer keeps, for each level of flow collections, the place of the token
  that may still turn out to start a key, and puts the `key` token in front of it
  when the colon comes.

Where no token fits, the tokens end (`tokens`). Those behind the oldest place that
may still start a key are held back, for a `key` token could stand before them.
-/

namespace ManifestBundle.Yaml

/-! ## What has been read -/

/-- A token that may start a key, if a colon follows in time. -/
structure KeyPlace where
  mark : Mark
  /-- The number of tokens before it. -/
  position : Nat
  /-- It must start a key, as it stands at the column of a block mapping. -/
  isRequired : Bool

/-- A line or 1024 characters are the most that a key may take. -/
def KeyPlace.isOver (p : KeyPlace) (m : Mark) : Bool :=
  p.mark.line < m.line || p.mark.index + 1024 < m.index

/-- What has been read and what has to be known to read on. -/
structure Lexer where
  cursor : Cursor
  /-- The tokens so far, the last one first. -/
  output : List Token := []
  /-- The number of tokens so far. -/
  count : Nat := 0
  /-- The first column to the right of the innermost block collection; zero outside. -/
  margin : Nat := 0
  /-- The margins of the block collections around it, from the inside. -/
  outerMargins : List Nat := []
  /-- The place that may start a key at the current flow level. -/
  keyPlace : Option KeyPlace := none
  /-- The places at the flow levels around it, from the inside. -/
  outerKeyPlaces : List (Option KeyPlace) := []
  /-- A key may start here. -/
  keyAllowed : Bool := true

namespace Lexer

/-- The lexer is inside a flow collection. -/
def inFlow (s : Lexer) : Bool :=
  !s.outerKeyPlaces.isEmpty

/-- Adds a token. -/
def emit (s : Lexer) (t : Token) : Lexer :=
  { s with output := t :: s.output, count := s.count + 1 }

/-- Adds tokens in front of those behind a position. -/
def insertAt (s : Lexer) (position : Nat) (ts : List Token) : Lexer :=
  let behind := s.count - position
  { s with
    output := s.output.take behind ++ ts.reverse ++ s.output.drop behind
    count := s.count + ts.length }

/-! ## Places of keys -/

/-- The place of a key at the current level is given up; `none` if a key is required. -/
def dropKeyPlace? (s : Lexer) : Option Lexer :=
  if s.keyPlace.any KeyPlace.isRequired then none else some { s with keyPlace := none }

/-- The token that comes may start a key, if one is allowed here. -/
def markKeyPlace? (s : Lexer) : Option Lexer :=
  if s.keyAllowed then do
    let s ← s.dropKeyPlace?
    return { s with keyPlace := some {
      mark := s.cursor.mark
      position := s.count
      isRequired := !s.inFlow && s.margin == s.cursor.column + 1 } }
  else some s

/-- The place, unless a key that starts there would be too long; `none` if that key
    is required. -/
def refreshed? (m : Mark) (place : Option KeyPlace) : Option (Option KeyPlace) :=
  match place with
  | some p => if p.isOver m then (if p.isRequired then none else some none) else some place
  | none => some none

/-- Gives up the places where a key would be too long. -/
def refreshKeyPlaces? (s : Lexer) : Option Lexer := do
  let keyPlace ← refreshed? s.cursor.mark s.keyPlace
  let outerKeyPlaces ← s.outerKeyPlaces.mapM (refreshed? s.cursor.mark)
  return { s with keyPlace, outerKeyPlaces }

/-! ## Block collections -/

/-- A block collection starts at a column, if that is to the right of the current one. -/
def opensAt (s : Lexer) (column : Nat) : Bool :=
  !s.inFlow && decide (s.margin ≤ column)

/-- Opens a block collection at a column. -/
def openBlock (s : Lexer) (column : Nat) : Lexer :=
  { s with margin := column + 1, outerMargins := s.margin :: s.outerMargins }

/-- Starts a block collection with the given token, if one starts here. -/
def startBlock (s : Lexer) (start : Token) : Lexer :=
  if s.opensAt s.cursor.column then (s.emit start).openBlock s.cursor.column else s

/-- Closes block collections as long as their margin is beyond the limit. -/
def closeBlocks (limit : Nat) (margin : Nat) (outer : List Nat) (s : Lexer) : Lexer :=
  if limit < margin then
    match outer with
    | [] => s
    | m :: outer =>
      closeBlocks limit m outer { s.emit .blockEnd with margin := m, outerMargins := outer }
  else s

/-- Closes the block collections that stand to the right of the cursor. -/
def dedent (s : Lexer) : Lexer :=
  if s.inFlow then s else closeBlocks (s.cursor.column + 1) s.margin s.outerMargins s

/-- Closes all block collections. -/
def dedentFully (s : Lexer) : Lexer :=
  if s.inFlow then s else closeBlocks 0 s.margin s.outerMargins s

/-! ## Between tokens -/

/-- Skips to the next token: spaces, tabs where they cannot be indentation, comments
    and line breaks, behind which a key may start in block context. Gives whether one
    is allowed then. -/
def skipBetween (inFlow : Bool) : Bool → Bool → List Char → Mark → Bool × Cursor
  | keyAllowed, _, [], m => (keyAllowed, ⟨[], m⟩)
  | keyAllowed, inComment, c :: cs, m =>
    if isBreak c then skipBetween inFlow (keyAllowed || !inFlow) false cs (m.next c)
    else if inComment || c = ' ' || (c = '\t' && (inFlow || !keyAllowed)) then
      skipBetween inFlow keyAllowed inComment cs (m.next c)
    else if c = '#' then skipBetween inFlow keyAllowed true cs (m.next c)
    else (keyAllowed, ⟨c :: cs, m⟩)

/-- Skips to the next token, and past a byte order mark at the start of the stream. -/
def skipToToken (s : Lexer) : Lexer :=
  let k := if s.cursor.mark.index = 0 ∧ s.cursor.rest.head? = some '\ufeff' then s.cursor.next
    else s.cursor
  let (keyAllowed, cursor) := skipBetween s.inFlow s.keyAllowed false k.rest k.mark
  { s with cursor, keyAllowed }

/-! ## Kinds of tokens -/

/-- Reads an indicator of `n` characters as a token. -/
def take (s : Lexer) (n : Nat) (t : Token) : Lexer :=
  { s.emit t with cursor := s.cursor.skip n }

/-- The end of the stream. -/
def readEnd? (s : Lexer) : Option Lexer := do
  let s ← s.dedentFully.dropKeyPlace?
  return { s.emit .streamEnd with keyAllowed := false }

/-- A directive. -/
def readDirective? (fuel : Nat) (s : Lexer) : Option Lexer := do
  let s ← s.dedentFully.dropKeyPlace?
  let (token, k) ← directive? fuel s.cursor
  let k ← lineRest? k
  return { s.emit token with cursor := k, keyAllowed := false }

/-- A document mark. -/
def readDocumentMark? (t : Token) (s : Lexer) : Option Lexer := do
  let s ← s.dedentFully.dropKeyPlace?
  return { s.take 3 t with keyAllowed := false }

/-- The start of a flow collection, which may itself start a key. -/
def readFlowStart? (t : Token) (s : Lexer) : Option Lexer := do
  let s ← s.markKeyPlace?
  return { s.take 1 t with
    outerKeyPlaces := s.keyPlace :: s.outerKeyPlaces
    keyPlace := none
    keyAllowed := true }

/-- The end of a flow collection. -/
def readFlowEnd? (t : Token) (s : Lexer) : Option Lexer := do
  let s ← s.dropKeyPlace?
  return { s.take 1 t with
    keyPlace := s.outerKeyPlaces.head?.getD none
    outerKeyPlaces := s.outerKeyPlaces.tail
    keyAllowed := false }

/-- A comma between the entries of a flow collection. -/
def readFlowEntry? (s : Lexer) : Option Lexer := do
  let s ← s.dropKeyPlace?
  return { s.take 1 .flowEntry with keyAllowed := true }

/-- A hyphen in front of an entry of a block sequence. -/
def readBlockEntry? (s : Lexer) : Option Lexer := do
  if !s.inFlow && !s.keyAllowed then none
  let s ← (s.startBlock .blockSequenceStart).dropKeyPlace?
  return { s.take 1 .blockEntry with keyAllowed := true }

/-- A question mark in front of a key. -/
def readKey? (s : Lexer) : Option Lexer := do
  if !s.inFlow && !s.keyAllowed then none
  let s ← (s.startBlock .blockMappingStart).dropKeyPlace?
  return { s.take 1 .key with keyAllowed := !s.inFlow }

/-- A colon in front of a value. If a key may have started, it did. -/
def readValue? (s : Lexer) : Option Lexer :=
  match s.keyPlace with
  | some p =>
    -- The key may be the first of a block mapping, which then starts at its column.
    let s := if s.opensAt p.mark.column then
        (s.insertAt p.position [.blockMappingStart, .key]).openBlock p.mark.column
      else s.insertAt p.position [.key]
    some { s.take 1 .value with keyPlace := none, keyAllowed := false }
  | none =>
    if !s.inFlow && !s.keyAllowed then none
    else
      let s := s.startBlock .blockMappingStart
      some { s.take 1 .value with keyAllowed := !s.inFlow }

/-- An anchor or alias. -/
def readName? (token : List Char → Token) (s : Lexer) : Option Lexer := do
  let s ← s.markKeyPlace?
  let (name, k) ← anchorName? s.cursor
  return { s.emit (token name) with cursor := k, keyAllowed := false }

/-- A tag. -/
def readTag? (fuel : Nat) (s : Lexer) : Option Lexer := do
  let s ← s.markKeyPlace?
  let (token, k) ← tag? s.inFlow fuel s.cursor
  return { s.emit token with cursor := k, keyAllowed := false }

/-- A block scalar. -/
def readBlockScalar? (folded : Bool) (fuel : Nat) (s : Lexer) : Option Lexer := do
  let s ← s.dropKeyPlace?
  let (text, k) ← blockScalar? folded s.margin fuel s.cursor
  return { s.emit (.scalar text false) with cursor := k, keyAllowed := true }

/-- A quoted scalar. -/
def readQuoted? (q : Quote) (fuel : Nat) (s : Lexer) : Option Lexer := do
  let s ← s.markKeyPlace?
  let (text, k) ← quoted? q fuel s.cursor
  return { s.emit (.scalar text false) with cursor := k, keyAllowed := false }

/-- A plain scalar. A key may start behind it if a line ends there. -/
def readPlain? (fuel : Nat) (s : Lexer) : Option Lexer := do
  let s ← s.markKeyPlace?
  let (text, k, newLine) ← plain? s.inFlow s.margin fuel s.cursor
  return { s.emit (.scalar text true) with cursor := k, keyAllowed := newLine }

/-! ## The stream -/

/-- A character that starts a token of its own and no plain scalar, with the three
    exceptions of `startsPlain`. -/
def isIndicator (c : Char) : Bool :=
  isFlowIndicator c ||
    ['-', '?', ':', '#', '&', '*', '!', '|', '>', '\'', '"', '%', '@', '\x60'].contains c

/-- A plain scalar starts here: at a character that is no indicator, at a hyphen in
    front of no blank, or, in block context, at a question mark or colon in front of
    no white space. -/
def startsPlain (inFlow : Bool) : List Char → Bool
  | [] => false
  | c :: cs =>
    !(isWhite c || isIndicator c) || (c = '-' && !(cs.head?).any isBlank) ||
      (!inFlow && (c = '?' || c = ':') && !atWhite cs)

/-- Reads the token here, which is not that of a line start. -/
def readInLine? (fuel : Nat) (s : Lexer) : Option Lexer :=
  match s.cursor.rest with
  | [] => s.readEnd?
  | c :: cs =>
    if c = '[' then s.readFlowStart? .flowSequenceStart
    else if c = '\x7b' then s.readFlowStart? .flowMappingStart
    else if c = ']' then s.readFlowEnd? .flowSequenceEnd
    else if c = '\x7d' then s.readFlowEnd? .flowMappingEnd
    else if c = ',' then s.readFlowEntry?
    else if c = '-' && atWhite cs then s.readBlockEntry?
    else if c = '?' && (s.inFlow || atWhite cs) then s.readKey?
    else if c = ':' && (s.inFlow || atWhite cs) then s.readValue?
    else if c = '*' then s.readName? .alias
    else if c = '&' then s.readName? .anchor
    else if c = '!' then s.readTag? fuel
    else if c = '|' && !s.inFlow then s.readBlockScalar? false fuel
    else if c = '>' && !s.inFlow then s.readBlockScalar? true fuel
    else if c = '\'' then s.readQuoted? .single fuel
    else if c = '"' then s.readQuoted? .double fuel
    else if startsPlain s.inFlow s.cursor.rest then s.readPlain? fuel
    else none

/-- Reads the next token, and with it the ends of the block collections that it
    stands to the left of; `none` if no token fits. -/
def read? (fuel : Nat) (s : Lexer) : Option Lexer := do
  let s := (← s.skipToToken.refreshKeyPlaces?).dedent
  if s.cursor.column = 0 ∧ s.cursor.rest.head? = some '%' then s.readDirective? fuel
  else if s.cursor.atDocumentMark then
    s.readDocumentMark? (if s.cursor.rest.head? = some '-' then .documentStart else .documentEnd)
  else s.readInLine? fuel

/-- The tokens so far that no `key` token can come to stand before, in order. -/
def settled (s : Lexer) : List Token :=
  let places := (s.keyPlace :: s.outerKeyPlaces).filterMap (·.map KeyPlace.position)
  s.output.reverse.take (places.foldl min s.count)

/-- The tokens from here on, behind those so far. If the stream is cut off, no token
    that reaches the cut can be told. -/
def run (isCut : Bool) : Nat → Lexer → List Token
  | 0, s => s.settled
  | fuel + 1, s =>
    match s.read? fuel with
    | none => s.settled
    | some t =>
      if isCut && t.cursor.rest.isEmpty then s.settled
      else if t.output.head? = some .streamEnd then t.output.reverse
      else run isCut fuel t

end Lexer

/-- The tokens of a stream; without `streamEnd` at the end if it has characters from
    which no token can be read. -/
def tokens (text : List Char) : List Token :=
  let (admitted, isCut) := takeIn text
  let cs := unifyBreaks admitted
  Lexer.run isCut (cs.length + 2) { cursor := ⟨cs, {}⟩ }

end ManifestBundle.Yaml
