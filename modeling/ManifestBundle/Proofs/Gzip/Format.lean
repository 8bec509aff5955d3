import ManifestBundle.Gzip.Member
import Mathlib.Algebra.Group.Nat.Defs
import Mathlib.Logic.ExistsUnique

/-!
# What a compressed file encodes

The format of compressed files as relations between octets and what they stand for, with no
reader in them: words of a prefix code (`Huffman.Word`) and the code that lengths of words
settle (`Huffman.IsCode`), repetitions (`Repeats`), the symbols of a block (`Symbols`), blocks
(`Blocks`), compressed streams (`Deflates`), headers (`IsHeader`) and, put together, members
(`IsMember`). A file is one member or several of them.
-/

namespace ManifestBundle.Gzip

/-! ## Prefix codes -/

namespace Huffman

/-- The bits are the word of a symbol: the way to it through the tree. -/
inductive Word : Huffman → Nat → List Bool → Prop
  | symbol (s : Nat) : Word (.symbol s) s []
  | zero {zero one : Huffman} {s : Nat} {w : List Bool} (h : zero.Word s w) :
      Word (.branch zero one) s (false :: w)
  | one {zero one : Huffman} {s : Nat} {w : List Bool} (h : one.Word s w) :
      Word (.branch zero one) s (true :: w)

/-- A symbol has one word of its length, if that is not zero, and none else. The words are in
    the order of their lengths and then of their symbols. -/
structure IsCanonical (code : Huffman) (lengths : List Nat) : Prop where
  length_eq {s : Nat} {w : List Bool} : code.Word s w → lengths[s]? = some w.length
  ne_nil {s : Nat} {w : List Bool} : code.Word s w → w ≠ []
  existsUnique {s n : Nat} : lengths[s]? = some n → n ≠ 0 → ∃! w, code.Word s w
  lt {s t : Nat} {w v : List Bool} : code.Word s w → code.Word t v →
    w.length < v.length ∨ w.length = v.length ∧ s < t → w < v

/-- The code of a symbol alone, whose word is so many zeros. -/
def lone : (length s : Nat) → Huffman
  | 0, s => .symbol s
  | length + 1, s => .branch (lone length s) .free

/-- The tree is the code with words of the given lengths, which fill it. If the words may be
    lacking, then it is also a code without words or with one alone. -/
inductive IsCode (mayLack : Bool) : (lengths : List Nat) → Huffman → Prop
  | full {lengths : List Nat} {code : Huffman} (isCanonical : code.IsCanonical lengths)
      (isFull : code.isFull = true) : IsCode mayLack lengths code
  | empty {count : Nat} (mayLack_eq : mayLack = true) :
      IsCode mayLack (List.replicate count 0) .free
  | lone {s length count : Nat} (mayLack_eq : mayLack = true) (pos : 0 < length) :
      IsCode mayLack (List.replicate s 0 ++ length :: List.replicate count 0) (lone length s)

end Huffman

/-! ## Symbols -/

/-- A symbol and the bits behind it stand for a value: the least one of the symbol and what
    the bits add to it. -/
def StandsFor (table : List (Nat × Nat)) (symbol : Nat) (w : List Bool) (value : Nat) : Prop :=
  ∃ least width n, table[symbol]? = some (least, width) ∧ n < 2 ^ width ∧ w = bitsOf width n ∧
    value = least + n

/-- So many octets have been added, each of which repeats the one at a distance back. -/
structure Repeats (distance count : Nat) (out copied : Output) : Prop where
  distance_pos : 0 < distance
  distance_le : distance ≤ out.size
  size_eq : copied.size = out.size + count
  old (i : Nat) : i < out.size → copied[i]? = out[i]?
  new (i : Nat) : out.size ≤ i → i < copied.size → copied[i]? = copied[i - distance]?

/-- The bits are symbols up to the end of their block, which add to the octets so far. -/
inductive Symbols (literals distances : Huffman) : List Bool → Output → Output → Prop
  | done {w : List Bool} {out : Output} (word : literals.Word 256 w) :
      Symbols literals distances w out out
  | octet {s : Nat} {w bs : List Bool} {out out' : Output} (word : literals.Word s w)
      (lt : s < 256) (more : Symbols literals distances bs (out.push (UInt8.ofNat s)) out') :
      Symbols literals distances (w ++ bs) out out'
  | repetition {s d length distance : Nat} {w x v y bs : List Bool} {out copied out' : Output}
      (word : literals.Word s w) (gt : 256 < s)
      (isLength : StandsFor lengthTable (s - 257) x length)
      (word' : distances.Word d v) (isDistance : StandsFor distanceTable d y distance)
      (repeats : Repeats distance length out copied)
      (more : Symbols literals distances bs copied out') :
      Symbols literals distances (w ++ (x ++ (v ++ (y ++ bs)))) out out'

/-! ## Codes -/

/-- The lengths of the words of the symbols for lengths, in the order of the symbols. -/
def lengthsInOrder (given : List Nat) : List Nat :=
  (List.range 19).map fun s => ((lengthOrder.zip given).lookup s).getD 0

/-- The bits complete the lengths of words that are given, the last ones first, to so many. -/
inductive WordLengths (code : Huffman) (count : Nat) : List Bool → List Nat → List Nat → Prop
  | done {given : List Nat} (complete : given.length = count) :
      WordLengths code count [] given given
  | length {s : Nat} {w bs : List Bool} {given lengths : List Nat}
      (incomplete : given.length < count) (word : code.Word s w) (lt : s < 16)
      (more : WordLengths code count bs (s :: given) lengths) :
      WordLengths code count (w ++ bs) given lengths
  /-- The last length three to six times more. -/
  | again {n last : Nat} {w bs : List Bool} {given lengths : List Nat}
      (incomplete : given.length < count) (word : code.Word 16 w) (lt : n < 2 ^ 2)
      (isLast : given.head? = some last)
      (more : WordLengths code count bs (List.replicate (3 + n) last ++ given) lengths) :
      WordLengths code count (w ++ (bitsOf 2 n ++ bs)) given lengths
  /-- Three to ten symbols without words. -/
  | zeros {n : Nat} {w bs : List Bool} {given lengths : List Nat}
      (incomplete : given.length < count) (word : code.Word 17 w) (lt : n < 2 ^ 3)
      (more : WordLengths code count bs (List.replicate (3 + n) 0 ++ given) lengths) :
      WordLengths code count (w ++ (bitsOf 3 n ++ bs)) given lengths
  /-- Eleven symbols without words or more. -/
  | manyZeros {s n : Nat} {w bs : List Bool} {given lengths : List Nat}
      (incomplete : given.length < count) (word : code.Word s w) (gt : 17 < s) (lt : n < 2 ^ 7)
      (more : WordLengths code count bs (List.replicate (11 + n) 0 ++ given) lengths) :
      WordLengths code count (w ++ (bitsOf 7 n ++ bs)) given lengths

/-- The bits give codes for literals and for distances, by the lengths of their words, which
    are in a code that is given first. -/
inductive GivenCodes : List Bool → Huffman → Huffman → Prop
  | mk {literalCount distanceCount lengthCount : Nat} {given lengths : List Nat}
      {code literals distances : Huffman} {w : List Bool}
      (literalCount_lt : literalCount < 30) (distanceCount_lt : distanceCount < 30)
      (lengthCount_lt : lengthCount < 2 ^ 4) (length_given : given.length = lengthCount + 4)
      (given_lt : ∀ n ∈ given, n < 2 ^ 3)
      (isCode : code.IsCode false (lengthsInOrder given))
      (isLengths : WordLengths code (literalCount + 257 + (distanceCount + 1)) w [] lengths)
      (isLiterals : literals.IsCode true (lengths.reverse.take (literalCount + 257)))
      (isDistances : distances.IsCode true (lengths.reverse.drop (literalCount + 257))) :
      GivenCodes (bitsOf 5 literalCount ++ (bitsOf 5 distanceCount ++ (bitsOf 4 lengthCount ++
        (given.flatMap (bitsOf 3) ++ w)))) literals distances

/-! ## Blocks -/

/-- The bits are a block of the given type, behind so many bits of the stream, which adds to
    the octets so far. -/
inductive Block : (type before : Nat) → List Bool → Output → Output → Prop
  /-- Octets as they are, behind bits up to the start of an octet of the stream. -/
  | stored {before : Nat} {padding : List Bool} {os : List UInt8} {out : Output}
      (short : padding.length < 8) (aligned : (before + padding.length) % 8 = 0)
      (length_le : os.length ≤ 0xffff) :
      Block 0 before
        (padding ++ (bitsOf 16 os.length ++ (bitsOf 16 (0xffff - os.length) ++ bits os)))
        out (out ++ os.toArray)
  | fixed {before : Nat} {w : List Bool} {literals distances : Huffman} {out out' : Output}
      (isLiterals : literals.IsCode false fixedLiteralLengths)
      (isDistances : distances.IsCode false (List.replicate 32 5))
      (symbols : Symbols literals distances w out out') : Block 1 before w out out'
  | given {before : Nat} {v w : List Bool} {literals distances : Huffman} {out out' : Output}
      (isCodes : GivenCodes v literals distances)
      (symbols : Symbols literals distances w out out') : Block 2 before (v ++ w) out out'

/-- The bits are blocks up to the last one, behind so many bits of the stream. -/
inductive Blocks : (before : Nat) → List Bool → Output → Output → Prop
  | last {type before : Nat} {w : List Bool} {out out' : Output}
      (block : Block type (before + 3) w out out') :
      Blocks before (bitsOf 1 1 ++ (bitsOf 2 type ++ w)) out out'
  | more {type before : Nat} {w bs : List Bool} {out middle out' : Output}
      (block : Block type (before + 3) w out middle)
      (blocks : Blocks (before + 3 + w.length) bs middle out') :
      Blocks before (bitsOf 1 0 ++ (bitsOf 2 type ++ (w ++ bs))) out out'

/-- The octets are a compressed stream of the content. What is left of the last octet behind
    the last block does not count. -/
def Deflates (os content : List UInt8) : Prop :=
  ∃ w padding, bits os = w ++ padding ∧ padding.length < 8 ∧ Blocks 0 w #[] content.toArray

/-! ## Members -/

/-- The octets are a field that is there if the header has the flag for it. -/
def IsField (flags flag : UInt8) (isPresent : List UInt8 → Prop) (field : List UInt8) : Prop :=
  if flags &&& flag = 0 then field = [] else isPresent field

/-- An extra field: its length and so many octets. -/
def IsExtra (field : List UInt8) : Prop :=
  ∃ size os, field = size ++ os ∧ size.length = 2 ∧ os.length = littleEndian size

/-- A name or comment: octets other than zero, and not too many of them, and then a zero. -/
def IsZeroEnded (field : List UInt8) : Prop :=
  ∃ os, field = os ++ [0] ∧ 0 ∉ os ∧ os.length ≤ maxFieldLength

/-- The checksum of what is in front of it in the header. -/
def IsHeaderChecksum (front field : List UInt8) : Prop :=
  field.length = 2 ∧ littleEndian field = (checksum front).toNat % UInt16.size

/-- The header of a member. -/
inductive IsHeader : List UInt8 → Prop
  | mk {flags : UInt8} {fixed extra name comment sum : List UInt8}
      (noOther : flags &&& 0xe0 = 0) (length_fixed : fixed.length = 6)
      (isExtra : IsField flags 0x04 IsExtra extra) (isName : IsField flags 0x08 IsZeroEnded name)
      (isComment : IsField flags 0x10 IsZeroEnded comment)
      (isSum : IsField flags 0x02
        (IsHeaderChecksum (0x1f :: 0x8b :: 8 :: flags :: (fixed ++ (extra ++ (name ++ comment)))))
        sum) :
      IsHeader (0x1f :: 0x8b :: 8 :: flags :: (fixed ++ (extra ++ (name ++ (comment ++ sum)))))

/-- The octets are a member that holds the content: a header, the compressed content, its
    checksum and its length. -/
inductive IsMember : List UInt8 → List UInt8 → Prop
  | mk {header body sum size content : List UInt8} (isHeader : IsHeader header)
      (deflates : Deflates body content)
      (length_sum : sum.length = 4) (isSum : littleEndian sum = (checksum content).toNat)
      (length_size : size.length = 4) (isSize : littleEndian size = content.length % UInt32.size) :
      IsMember (header ++ (body ++ (sum ++ size))) content

end ManifestBundle.Gzip
