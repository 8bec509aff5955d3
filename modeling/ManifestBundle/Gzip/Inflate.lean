import ManifestBundle.Gzip.Bits
import ManifestBundle.Gzip.Huffman

/-!
# Expanding compressed octets

A compressed stream is a sequence of blocks up to one that is marked as the last. A
block holds octets as they are, or symbols in prefix codes that are fixed or given
by the block. A symbol is an octet, the end of the block, or a length: so many octets
are repeated, from a distance back that follows in a code of its own.
-/

namespace ManifestBundle.Gzip

/-- The octets so far. -/
abbrev Output := Array UInt8

/-! ## Lengths and distances -/

/-- The bits here that are added to the least of the values that a symbol stands for,
    by the least value and the number of bits of each symbol. -/
def extended? (table : List (Nat × Nat)) (symbol : Nat) (bs : List Bool) :
    Option (Nat × List Bool) := do
  let (least, width) ← table[symbol]?
  let (n, bs) ← number? width bs
  return (least + n, bs)

/-- Least values, where each symbol has as many values as its bits can tell apart. -/
def leastValues (first : Nat) : List Nat → List (Nat × Nat)
  | [] => []
  | width :: widths => (first, width) :: leastValues (first + 2 ^ width) widths

/-- The lengths that the symbols from 257 on stand for. -/
def lengthTable : List (Nat × Nat) :=
  leastValues 3 [0, 0, 0, 0, 0, 0, 0, 0, 1, 1, 1, 1, 2, 2, 2, 2, 3, 3, 3, 3, 4, 4, 4, 4, 5, 5, 5, 5]
    ++ [(258, 0)]

/-- The distances that the symbols of their code stand for. -/
def distanceTable : List (Nat × Nat) :=
  leastValues 1 [0, 0, 0, 0, 1, 1, 2, 2, 3, 3, 4, 4, 5, 5, 6, 6, 7, 7, 8, 8, 9, 9, 10, 10, 11, 11,
    12, 12, 13, 13]

/-! ## Symbols -/

/-- Repeats octets from a distance back, one after the other, so that those just
    repeated can be repeated again. -/
def copy? (distance : Nat) : (count : Nat) → Output → Option Output
  | 0, out => some out
  | count + 1, out =>
    if distance ≤ out.size then do copy? distance count (out.push (← out[out.size - distance]?))
    else none

/-- Expands the symbols of a block up to its end. -/
def symbols? (literals distances : Huffman) : Nat → List Bool → Output →
    Option (List Bool × Output)
  | 0, _, _ => none
  | fuel + 1, bs, out => do
    let (s, bs) ← literals.read? bs
    if s < 256 then symbols? literals distances fuel bs (out.push (UInt8.ofNat s))
    else if s = 256 then return (bs, out)
    else do
      let (length, bs) ← extended? lengthTable (s - 257) bs
      let (d, bs) ← distances.read? bs
      let (distance, bs) ← extended? distanceTable d bs
      symbols? literals distances fuel bs (← copy? distance length out)

/-! ## Codes -/

/-- The order in which the lengths of the words for lengths are given. -/
def lengthOrder : List Nat :=
  [16, 17, 18, 0, 8, 7, 9, 6, 10, 5, 11, 4, 12, 3, 13, 2, 14, 1, 15]

/-- So many numbers of a width, and the bits behind them. -/
def numbers? (width : Nat) : (count : Nat) → List Bool → Option (List Nat × List Bool)
  | 0, bs => some ([], bs)
  | count + 1, bs => do
    let (n, bs) ← number? width bs
    let (ns, bs) ← numbers? width count bs
    return (n :: ns, bs)

/-- The code for lengths that a block gives. -/
def lengthCode? (count : Nat) (bs : List Bool) : Option (Huffman × List Bool) := do
  let (given, bs) ← numbers? 3 count bs
  let lengths := (List.range 19).map fun s => ((lengthOrder.zip given).lookup s).getD 0
  return (← Huffman.ofLengths? false lengths, bs)

/-- So many lengths of words, the last ones first, behind those that are given. A
    symbol is a length, or repeats the last one or zero. -/
def wordLengths? (code : Huffman) (count : Nat) : Nat → List Bool → List Nat →
    Option (List Nat × List Bool)
  | 0, _, _ => none
  | fuel + 1, bs, given =>
    -- A repetition must not reach beyond the last length.
    if count < given.length then none
    else if count = given.length then some (given, bs)
    else do
      let (s, bs) ← code.read? bs
      if s < 16 then wordLengths? code count fuel bs (s :: given)
      else if s = 16 then do
        let last ← given.head?
        let (n, bs) ← number? 2 bs
        wordLengths? code count fuel bs (List.replicate (3 + n) last ++ given)
      else do
        let (n, bs) ← if s = 17 then (number? 3 bs).map fun (n, bs) => (3 + n, bs)
          else (number? 7 bs).map fun (n, bs) => (11 + n, bs)
        wordLengths? code count fuel bs (List.replicate n 0 ++ given)

/-- The codes for literals and for distances that a block gives. -/
def givenCodes? (bs : List Bool) : Option ((Huffman × Huffman) × List Bool) := do
  let (literalCount, bs) ← number? 5 bs
  let (distanceCount, bs) ← number? 5 bs
  let (lengthCount, bs) ← number? 4 bs
  if 29 < literalCount || 29 < distanceCount then none
  let (code, bs) ← lengthCode? (lengthCount + 4) bs
  let count := literalCount + 257 + (distanceCount + 1)
  let (given, bs) ← wordLengths? code count (count + 1) bs []
  let lengths := given.reverse
  let literals ← Huffman.ofLengths? true (lengths.take (literalCount + 257))
  let distances ← Huffman.ofLengths? true (lengths.drop (literalCount + 257))
  return ((literals, distances), bs)

/-- The lengths of the words for literals in the fixed code. -/
def fixedLiteralLengths : List Nat :=
  List.replicate 144 8 ++ List.replicate 112 9 ++ List.replicate 24 7 ++ List.replicate 8 8

/-- The fixed codes for literals and for distances. -/
def fixedCodes? : Option (Huffman × Huffman) := do
  return (← Huffman.ofLengths? false fixedLiteralLengths,
    ← Huffman.ofLengths? false (List.replicate 32 5))

/-! ## Blocks -/

/-- Expands a block of octets as they are. Their number is given twice, the second
    time with all bits inverted. -/
def stored? (bs : List Bool) (out : Output) : Option (List Bool × Output) := do
  let (size, bs) ← number? 16 (align bs)
  let (inverted, bs) ← number? 16 bs
  if size + inverted ≠ 0xffff then none
  let (os, bs) ← octets? size bs
  return (bs, out ++ os.toArray)

/-- Expands a block of the given type. -/
def block? (type fuel : Nat) (bs : List Bool) (out : Output) : Option (List Bool × Output) :=
  match type with
  | 0 => stored? bs out
  | 1 => do
    let (literals, distances) ← fixedCodes?
    symbols? literals distances fuel bs out
  | 2 => do
    let ((literals, distances), bs) ← givenCodes? bs
    symbols? literals distances fuel bs out
  | _ => none

/-- Expands the blocks here. -/
def blocks? : Nat → List Bool → Output → Option (List Bool × Output)
  | 0, _, _ => none
  | fuel + 1, bs, out => do
    let (isLast, bs) ← number? 1 bs
    let (type, bs) ← number? 2 bs
    let (bs, out) ← block? type (fuel + 1) bs out
    if isLast = 1 then return (bs, out) else blocks? fuel bs out

/-- The octets that a compressed stream stands for, and the octets behind it. -/
def inflate? (os : List UInt8) : Option (List UInt8 × List UInt8) := do
  let bs := bits os
  let (bs, out) ← blocks? (bs.length + 1) bs #[]
  return (out.toList, os.drop (os.length - bs.length / 8))

end ManifestBundle.Gzip
