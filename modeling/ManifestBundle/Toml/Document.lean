import ManifestBundle.Toml.DateTime
import ManifestBundle.Toml.Number
import ManifestBundle.Toml.Quoted
import ManifestBundle.Toml.Table

/-!
# Reading a TOML document

A document is a sequence of expressions, each on lines of its own: the header of a
table, the header of the next table of an array, or a key and its value. A key is
quoted or consists of letters, digits, underscores and hyphens, and may have several
parts with dots between them. Arrays and tables stand in each other, and keys have
parts, up to a limit.
-/

namespace ManifestBundle.Toml

/-- The limit that the depth of a value, and the number of parts of a key, stay
    below. -/
def depthLimit : Nat :=
  80

/-! ## Keys -/

/-- A part of a key here, and what is behind it. -/
def keyPart? (fuel : Nat) (cs : List Char) : Option (List Char × List Char) :=
  match cs with
  | [] => none
  | c :: _ =>
    if c = '"' || c = '\'' then lineText? fuel cs
    else
      let part := cs.takeWhile Text.isWord
      if part.isEmpty then none else some (part, cs.drop part.length)

/-- The parts of a key here, with dots and blanks between them, and what is behind
    them and their blanks. -/
def keyParts? : Nat → List Char → Option (List String × List Char)
  | 0, _ => none
  | fuel + 1, cs => do
    let (part, cs) ← keyPart? fuel (skipBlanks cs)
    match skipBlanks cs with
    | '.' :: cs => do
      let (parts, cs) ← keyParts? fuel cs
      return (String.ofList part :: parts, cs)
    | cs => return ([String.ofList part], cs)

/-- The key here. -/
def key? (fuel : Nat) (cs : List Char) : Option (List String × List Char) := do
  let (parts, cs) ← keyParts? fuel cs
  if parts.length < depthLimit then some (parts, cs) else none

/-! ## Lines -/

/-- The text behind a comment here, if there is one. -/
def skipComment (cs : List Char) : List Char :=
  match cs with
  | '#' :: cs => cs.dropWhile isText
  | cs => cs

/-- What is behind the white space and the comments here. -/
def skipLines? : Nat → List Char → Option (List Char)
  | 0, _ => none
  | fuel + 1, cs =>
    let cs := skipBlanks cs
    match cs with
    | [] => some []
    | c :: _ =>
      if c = '#' || c = '\n' || c = '\r' then
        match skipComment cs with
        | [] => some []
        | cs => do skipLines? fuel (← newline? cs)
      else some cs

/-- What is behind the blanks, the comment and the line break here; the text may end
    instead of the line. -/
def lineEnd? (cs : List Char) : Option (List Char) :=
  match skipComment (skipBlanks cs) with
  | [] => some []
  | cs => newline? cs

/-! ## Values -/

/-- The number, date or time here. -/
def numeral? (cs : List Char) : Option (Value × List Char) :=
  match dateTime? cs with
  | some (text, cs) => some (.dateTime (String.ofList text), cs)
  | none =>
    match float? cs with
    | some r => some r
    | none => integer? cs

/-- The value here that is neither an array nor a table, and what is behind it. -/
def scalar? (fuel : Nat) (cs : List Char) : Option (Value × List Char) :=
  match cs with
  | '"' :: _ | '\'' :: _ =>
    (text? fuel cs).map fun (text, cs) => (.text (String.ofList text), cs)
  | 't' :: 'r' :: 'u' :: 'e' :: cs => some (.bool true, cs)
  | 'f' :: 'a' :: 'l' :: 's' :: 'e' :: cs => some (.bool false, cs)
  | c :: _ =>
    if c = '+' || c = '-' || Text.isDigit c then numeral? cs else nonFinite? false cs
  | [] => none

mutual

/-- The value here, at a depth, and what is behind it. -/
def value? (depth : Nat) : Nat → List Char → Option (Value × List Char)
  | 0, _ => none
  | fuel + 1, cs =>
    match cs with
    | '[' :: cs =>
      if depth + 1 < depthLimit then do
        let (items, cs) ← items? (depth + 1) fuel cs
        return (.array items, cs)
      else none
    | '\x7b' :: cs =>
      if depth + 1 < depthLimit then do
        let (pairs, cs) ← match skipBlanks cs with
          | '\x7d' :: cs => some ([], cs)
          | cs => pairs? (depth + 1) fuel cs
        return (← inlineTable? pairs, cs)
      else none
    | cs => scalar? fuel cs

/-- The items of an array up to its closing bracket, and what is behind that. -/
def items? (depth : Nat) : Nat → List Char → Option (List Value × List Char)
  | 0, _ => none
  | fuel + 1, cs => do
    match ← skipLines? (fuel + 1) cs with
    | ']' :: cs => return ([], cs)
    | cs => do
      let (v, cs) ← value? depth fuel cs
      match ← skipLines? (fuel + 1) cs with
      | ',' :: cs => do
        let (vs, cs) ← items? depth fuel cs
        return (v :: vs, cs)
      | ']' :: cs => return ([v], cs)
      | _ => none

/-- The keys and values of a table in braces up to its closing brace, and what is
    behind that. -/
def pairs? (depth : Nat) : Nat → List Char → Option (List (List String × Value) × List Char)
  | 0, _ => none
  | fuel + 1, cs => do
    let (key, cs) ← key? (fuel + 1) cs
    let (v, cs) ← value? depth fuel (skipBlanks (← mark? '=' cs))
    match skipBlanks cs with
    | ',' :: cs => do
      let (ps, cs) ← pairs? depth fuel cs
      return ((key, v) :: ps, cs)
    | '\x7d' :: cs => return ([(key, v)], cs)
    | _ => none

end

/-! ## Expressions -/

/-- An expression of a document. -/
inductive Expression where
  | header (path : List String)
  | rowHeader (path : List String)
  | pair (path : List String) (v : Value)

/-- The expression here, and what is behind it and its line. -/
def expression? (fuel : Nat) (cs : List Char) : Option (Expression × List Char) :=
  match cs with
  | '[' :: '[' :: cs => do
    let (path, cs) ← key? fuel cs
    return (.rowHeader path, ← lineEnd? (← mark? ']' (← mark? ']' cs)))
  | '[' :: cs => do
    let (path, cs) ← key? fuel cs
    return (.header path, ← lineEnd? (← mark? ']' cs))
  | cs => do
    let (path, cs) ← key? fuel cs
    let (v, cs) ← value? 0 fuel (skipBlanks (← mark? '=' cs))
    return (.pair path v, ← lineEnd? cs)

/-- The expressions of a document. -/
def expressions? : Nat → List Char → Option (List Expression)
  | 0, _ => none
  | fuel + 1, cs => do
    match ← skipLines? (fuel + 1) cs with
    | [] => return []
    | cs => do
      let (e, cs) ← expression? (fuel + 1) cs
      return e :: (← expressions? fuel cs)

/-- A document that has been read up to some place. -/
structure Draft where
  entries : Entries := []
  /-- The path of the last header; empty before the first. -/
  current : List String := []

/-- The draft with one more expression. -/
def Draft.take? (d : Draft) : Expression → Option Draft
  | .header path => do return ⟨← d.entries.startTable? path, path⟩
  | .rowHeader path => do return ⟨← d.entries.startRow? path, path⟩
  | .pair path v => do
    let entries ← d.entries.change? false (fun _ es => es.insert? path v) .header d.current
    return { d with entries }

/-- The keys and values of the document in a text; `none` if it is not well formed.
    A byte order mark in front of it is skipped. -/
def parse? (text : List Char) : Option (List (String × Value)) := do
  let cs := match text with
    | '\ufeff' :: cs => cs
    | cs => cs
  let es ← expressions? (2 * cs.length + 2) cs
  let d ← es.foldlM Draft.take? {}
  return entriesToValues d.entries

end ManifestBundle.Toml
