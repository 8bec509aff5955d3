import ManifestBundle.Text.Digit

/-!
# Quoted text in TOML

Text stands between double quotes, with escapes, or between single quotes, without.
Tripled quotes let it go over several lines: a newline directly behind the opening
quotes does not count, up to two quotes may stand in front of the closing ones, and
between double quotes a backslash at the end of a line drops the white space up to
the next character.
-/

namespace ManifestBundle.Toml

/-- The line break at the front of a text, and what is behind it. -/
def newline? : List Char → Option (List Char)
  | '\n' :: cs => some cs
  | '\r' :: '\n' :: cs => some cs
  | _ => none

/-- A blank: a space or a tab. -/
def isBlank (c : Char) : Bool :=
  c = ' ' || c = '\t'

/-- The text behind its blanks. -/
def skipBlanks (cs : List Char) : List Char :=
  cs.dropWhile isBlank

/-- A character that may stand in a comment, and for itself in quoted text. -/
def isText (c : Char) : Bool :=
  c = '\t' || (' ' ≤ c && c ≠ '\x7f')

/-- The character that a letter behind a backslash stands for. -/
def escapes : List (Char × Char) :=
  [('b', '\x08'), ('t', '\t'), ('n', '\n'), ('f', '\x0c'), ('r', '\r'), ('"', '"'), ('\\', '\\')]

/-- The character that an escape stands for, from the text behind the backslash, and
    what is behind the escape. -/
def escape? : List Char → Option (Char × List Char)
  | [] => none
  | c :: cs =>
    match escapes.lookup c with
    | some d => some (d, cs)
    | none => do
      let width ← if c = 'u' then some 4 else if c = 'U' then some 8 else none
      let digits := cs.take width
      if digits.length < width then none
      return (← Text.charOfHex? digits, cs.drop width)

/-- The text up to a double quote, which ends it, and what is behind the quote. -/
def basicRest? : Nat → List Char → Option (List Char × List Char)
  | 0, _ => none
  | _, [] => none
  | fuel + 1, c :: cs =>
    if c = '"' then some ([], cs)
    else if c = '\\' then do
      let (d, cs) ← escape? cs
      let (text, cs) ← basicRest? fuel cs
      return (d :: text, cs)
    else if isText c then do
      let (text, cs) ← basicRest? fuel cs
      return (c :: text, cs)
    else none

/-- The text up to a single quote, which ends it, and what is behind the quote. -/
def literalRest? : List Char → Option (List Char × List Char)
  | [] => none
  | c :: cs =>
    if c = '\'' then some ([], cs)
    else if isText c then do
      let (text, cs) ← literalRest? cs
      return (c :: text, cs)
    else none

/-- The quotes that end a text over several lines, if they are here: those that
    belong to the text, and what is behind them. -/
def closing? (quote : Char) (cs : List Char) : Option (List Char × List Char) :=
  let count := (cs.takeWhile (· = quote)).length
  if count < 3 then none
  else
    let inText := min (count - 3) 2
    some (List.replicate inText quote, cs.drop (inText + 3))

/-- The white space at the front of a text, line breaks included, is skipped. -/
def skipWhite : List Char → List Char
  | '\r' :: '\n' :: cs => skipWhite cs
  | c :: cs => if isBlank c || c = '\n' then skipWhite cs else c :: cs
  | [] => []

/-- The text over several lines up to its closing quotes, and what is behind them.
    Escapes count if the quote is a double one. -/
def multilineRest? (quote : Char) : Nat → List Char → Option (List Char × List Char)
  | 0, _ => none
  | _, [] => none
  | fuel + 1, c :: cs =>
    match closing? quote (c :: cs) with
    | some done => some done
    | none =>
      match newline? (c :: cs) with
      | some cs => do
        let (text, cs) ← multilineRest? quote fuel cs
        return ('\n' :: text, cs)
      | none =>
        if quote = '"' && c = '\\' then
          match newline? (skipBlanks cs) with
          | some cs => multilineRest? quote fuel (skipWhite cs)
          | none => do
            let (d, cs) ← escape? cs
            let (text, cs) ← multilineRest? quote fuel cs
            return (d :: text, cs)
        else if isText c then do
          let (text, cs) ← multilineRest? quote fuel cs
          return (c :: text, cs)
        else none

/-- The text between tripled quotes, from behind the opening ones. -/
def multiline? (quote : Char) (fuel : Nat) (cs : List Char) : Option (List Char × List Char) :=
  multilineRest? quote fuel ((newline? cs).getD cs)

/-- The quoted text in one line here, and what is behind it. -/
def lineText? (fuel : Nat) : List Char → Option (List Char × List Char)
  | '"' :: cs => basicRest? fuel cs
  | '\'' :: cs => literalRest? cs
  | _ => none

/-- The quoted text here, and what is behind it. -/
def text? (fuel : Nat) : List Char → Option (List Char × List Char)
  | '"' :: '"' :: '"' :: cs => multiline? '"' fuel cs
  | '\'' :: '\'' :: '\'' :: cs => multiline? '\'' fuel cs
  | cs => lineText? fuel cs

end ManifestBundle.Toml
