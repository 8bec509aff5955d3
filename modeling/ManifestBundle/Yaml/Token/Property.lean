import ManifestBundle.Text.Digit
import ManifestBundle.Yaml.Token

/-!
# Anchors, aliases, tags and directives

The names in front of nodes and at the start of documents. A tag is given as a
handle and a suffix, as a suffix alone, or verbatim; octets in it can be escaped by
a percent sign and two hexadecimal digits. A directive is a line that starts with a
percent sign and gives the version of the format or the meaning of a handle.
-/

namespace ManifestBundle.Yaml

/-- A character that may stand directly behind the name of an anchor or alias, apart
    from white space. -/
def mayFollowName (c : Char) : Bool :=
  c = '?' || c = ':' || c = ',' || c = ']' || c = '\x7d' || c = '%' || c = '@' || c = '\x60'

/-- The name behind the indicator of an anchor or alias, and the place behind it. -/
def anchorName? (k : Cursor) : Option (List Char × Cursor) :=
  let (name, k) := k.next.span Text.isWord
  if name.isEmpty || !(atWhite k.rest || (k.rest.head?).any mayFollowName) then none
  else some (name, k)

/-- A character of a tag. In a verbatim tag and in a directive it may be one that
    structures a flow collection. -/
def isTagChar (verbatim : Bool) (c : Char) : Bool :=
  Text.isWord c || [';', '/', '?', ':', '@', '&', '=', '+', '$', '.', '!', '~', '*', '\'', '(',
    ')', '%'].contains c || (verbatim && [',', '[', ']'].contains c)

/-- The octet behind a percent sign. -/
def escapedOctet? : List Char → Option UInt8
  | '%' :: a :: b :: _ => do
    return UInt8.ofNat (16 * (← Text.hexValue? a) + (← Text.hexValue? b))
  | _ => none

/-- The number of octets of the character whose first octet is given. -/
def octetCount? (o : UInt8) : Option Nat :=
  if o &&& 0x80 = 0 then some 1
  else if o &&& 0xe0 = 0xc0 then some 2
  else if o &&& 0xf0 = 0xe0 then some 3
  else if o &&& 0xf8 = 0xf0 then some 4
  else none

/-- The escaped octets of the rest of a character: `n` of them. -/
def trailingOctets? : Nat → List Char → Option (List UInt8)
  | 0, _ => some []
  | n + 1, cs => do
    let o ← escapedOctet? cs
    if o &&& 0xc0 ≠ 0x80 then none
    return o :: (← trailingOctets? n (cs.drop 3))

/-- The octets of the escaped character at the front of a text. -/
def escapedOctets? (cs : List Char) : Option (List UInt8) := do
  let o ← escapedOctet? cs
  return o :: (← trailingOctets? ((← octetCount? o) - 1) (cs.drop 3))

/-- The characters of a tag from here on, as octets, and the place behind them. -/
def tagOctets? (verbatim : Bool) : Nat → Cursor → Option (List UInt8 × Cursor)
  | 0, _ => none
  | fuel + 1, k =>
    match k.rest with
    | [] => some ([], k)
    | c :: _ =>
      if !isTagChar verbatim c then some ([], k)
      else if c = '%' then do
        let octets ← escapedOctets? k.rest
        let (more, k) ← tagOctets? verbatim fuel (k.skip (3 * octets.length))
        return (octets ++ more, k)
      else do
        let (more, k) ← tagOctets? verbatim fuel k.next
        return (UInt8.ofNat c.toNat :: more, k)

/-- The octets of characters that stand for themselves in a tag. -/
def tagOfChars (cs : List Char) : List UInt8 :=
  cs.map fun c => UInt8.ofNat c.toNat

/-- A handle: an exclamation mark, letters and a second exclamation mark, which may
    be missing. -/
def tagHandle? (k : Cursor) : Option (List Char × Cursor) :=
  if k.rest.head? ≠ some '!' then none
  else
    let (name, k) := k.next.span Text.isWord
    if k.rest.head? = some '!' then some ('!' :: name ++ ['!'], k.next) else some ('!' :: name, k)

/-- The tag behind `!<`, and the place behind it. -/
def verbatimTag? (fuel : Nat) (k : Cursor) : Option (Token × Cursor) := do
  let (octets, k) ← tagOctets? true fuel k
  if octets.isEmpty || k.rest.head? ≠ some '>' then none
  return (.tag [] ⟨octets⟩, k.next)

/-- The tag here if it is not verbatim, and the place behind it. Letters behind the
    first exclamation mark are a handle if a second one follows, else they belong to
    the suffix; the mark alone is a tag, too. -/
def shorthandTag? (fuel : Nat) (k : Cursor) : Option (Token × Cursor) := do
  let (handle, k) ← tagHandle? k
  let (octets, k) ← tagOctets? false fuel k
  if 1 < handle.length && handle.getLast? = some '!' then
    if octets.isEmpty then none
    return (.tag handle ⟨octets⟩, k)
  else
    let suffix := tagOfChars (handle.drop 1) ++ octets
    return (if suffix.isEmpty then .tag [] (Tag.ofText "!") else .tag ['!'] ⟨suffix⟩, k)

/-- The tag here and the place behind it, which is white space or, in a flow
    collection, a comma. -/
def tag? (inFlow : Bool) (fuel : Nat) (k : Cursor) : Option (Token × Cursor) := do
  let (token, k) ← match k.rest with
    | '!' :: '<' :: _ => verbatimTag? fuel (k.skip 2)
    | _ => shorthandTag? fuel k
  if atWhite k.rest || (inFlow && k.rest.head? = some ',') then return (token, k) else none

/-- A number of at most nine digits, and the place behind it. -/
def versionNumber? (k : Cursor) : Option (Nat × Cursor) :=
  let (ds, k) := k.span Text.isDigit
  if ds.isEmpty || 9 < ds.length then none else some (Nat.ofDigitChars 10 ds 0, k)

/-- The version in a directive. -/
def versionDirective? (k : Cursor) : Option (Token × Cursor) := do
  let (major, k) ← versionNumber? (k.skipWhile isBlank)
  if k.rest.head? ≠ some '.' then none
  let (minor, k) ← versionNumber? k.next
  return (.version major minor, k)

/-- The handle in a directive, and the start of a tag that it stands for. -/
def handleDirective? (fuel : Nat) (k : Cursor) : Option (Token × Cursor) := do
  let (handle, k) ← tagHandle? (k.skipWhile isBlank)
  if !(handle = ['!'] || (1 < handle.length && handle.getLast? = some '!')) then none
  if !(k.rest.head?).any isBlank then none
  let (octets, k) ← tagOctets? true fuel (k.skipWhile isBlank)
  if octets.isEmpty || !atWhite k.rest then none
  return (.tagHandle handle ⟨octets⟩, k)

/-- The directive here, without the rest of its line. -/
def directive? (fuel : Nat) (k : Cursor) : Option (Token × Cursor) :=
  let (name, k) := k.next.span Text.isWord
  if !atWhite k.rest then none
  else if name = ['Y', 'A', 'M', 'L'] then versionDirective? k
  else if name = ['T', 'A', 'G'] then handleDirective? fuel k
  else none

end ManifestBundle.Yaml
