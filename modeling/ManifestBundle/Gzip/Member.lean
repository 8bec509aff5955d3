import ManifestBundle.Gzip.Checksum
import ManifestBundle.Gzip.Inflate

/-!
# Compressed files

A compressed file starts with a header, which may hold a name, a comment and other
fields; then comes the compressed content, and behind it its checksum and its length.
What follows is not looked at. A file is refused if it is cut short, if a number in
it does not agree with the content, or if its header has flags without a meaning.
-/

namespace ManifestBundle.Gzip

/-- The octets that start a compressed file. -/
def magic : List UInt8 :=
  [0x1f, 0x8b]

/-- The file starts as a compressed one. -/
def hasMagic (os : List UInt8) : Bool :=
  magic.isPrefixOf os

/-- So many octets, and those behind them. -/
def take? (count : Nat) (os : List UInt8) : Option (List UInt8 × List UInt8) :=
  if count ≤ os.length then some (os.take count, os.drop count) else none

/-- The number in octets, the least first. -/
def littleEndian (os : List UInt8) : Nat :=
  os.foldr (fun o n => o.toNat + 256 * n) 0

/-- The greatest length of a name or comment. -/
def maxFieldLength : Nat :=
  65535

/-- What is behind a name or comment, which ends with a zero. -/
def afterZero? (os : List UInt8) : Option (List UInt8) :=
  let field := os.takeWhile (· ≠ 0)
  if field.length ≤ maxFieldLength && field.length < os.length then
    some (os.drop (field.length + 1))
  else none

/-- What is behind an extra field, which starts with its length. -/
def afterExtra? (os : List UInt8) : Option (List UInt8) := do
  let (size, os) ← take? 2 os
  let (_, os) ← take? (littleEndian size) os
  some os

/-- What is behind the checksum of the header, which is half of that of content. -/
def afterChecksum? (header os : List UInt8) : Option (List UInt8) := do
  let (sum, os) ← take? 2 os
  if littleEndian sum = (checksum header).toNat % UInt16.size then some os else none

/-- What is behind the header here, `whole` being the file from the start of it. -/
def afterHeader? (whole : List UInt8) : Option (List UInt8) := do
  let (fixed, os) ← take? 10 whole
  match fixed with
  | [0x1f, 0x8b, method, flags, _, _, _, _, _, _] =>
    let holds (flag : UInt8) (after? : List UInt8 → Option (List UInt8)) os :=
      if flags &&& flag = 0 then some os else after? os
    if method ≠ 8 || flags &&& 0xe0 ≠ 0 then none
    let os ← holds 0x04 afterExtra? os
    let os ← holds 0x08 afterZero? os
    let os ← holds 0x10 afterZero? os
    holds 0x02 (afterChecksum? (whole.take (whole.length - os.length))) os
  | _ => none

/-- The content of the compressed file at the front of the octets. -/
def content? (os : List UInt8) : Option (List UInt8) := do
  let (content, os) ← inflate? (← afterHeader? os)
  let (sum, os) ← take? 4 os
  let (size, _) ← take? 4 os
  if littleEndian sum = (checksum content).toNat ∧
      littleEndian size = content.length % UInt32.size then
    return content
  else none

end ManifestBundle.Gzip
