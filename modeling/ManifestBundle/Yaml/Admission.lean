/-!
# Characters that a YAML stream may hold

A stream holds printable characters only, together with tab, line feed, carriage
return and the next line character. It is taken in block by block, each of the
largest number of whole characters that fit into 16384 octets, and a block with
another character is not taken in at all: the stream is cut off before it.
-/

namespace ManifestBundle.Yaml

/-- A character that a stream may hold. -/
def isAdmitted (c : Char) : Bool :=
  let n := c.toNat
  n = 0x09 || n = 0x0a || n = 0x0d || (0x20 ≤ n && n ≤ 0x7e) || n = 0x85 ||
    (0xa0 ≤ n && n ≤ 0xd7ff) || (0xe000 ≤ n && n ≤ 0xfffd) || 0x10000 ≤ n

/-- The size of a block in octets. -/
def blockSize : Nat :=
  16384

/-- The blocks that are taken in. `room` octets are left for the block whose
    characters so far, the last one first, are given. -/
def takeInFrom (room : Nat) (block : List Char) : List Char → List Char × Bool
  | [] => if block.all isAdmitted then (block.reverse, false) else ([], true)
  | c :: cs =>
    if c.utf8Size ≤ room then takeInFrom (room - c.utf8Size) (c :: block) cs
    else if block.all isAdmitted then
      let (taken, isCut) := takeInFrom (blockSize - c.utf8Size) [c] cs
      (block.reverse ++ taken, isCut)
    else ([], true)

/-- The characters of a stream that are taken in, and whether it is cut off behind
    them. -/
def takeIn (cs : List Char) : List Char × Bool :=
  takeInFrom blockSize [] cs

end ManifestBundle.Yaml
