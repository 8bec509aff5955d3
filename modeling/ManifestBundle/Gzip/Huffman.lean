/-!
# Prefix codes

A prefix code is given by the lengths of the words of its symbols; a symbol of
length zero has no word. The words of one length follow each other in the order of
the symbols, and those of the next length follow on. As a binary tree, a code has a
symbol at each leaf: going through the tree from the left, the first symbol that is
left of each length takes the first place at that depth (`Huffman.place`).

The words must fill the tree. Only a code with at most one word may leave places
free, and not every use of a code admits that.
-/

namespace ManifestBundle.Gzip

/-- A binary tree with symbols at its leaves. -/
inductive Huffman where
  /-- A leaf without a symbol. -/
  | free
  | symbol (s : Nat)
  | branch (zero one : Huffman)
deriving DecidableEq, Repr, Inhabited

namespace Huffman

/-- The greatest length of a word. -/
def maxLength : Nat :=
  15

/-- Places symbols below a node. `levels` lists the symbols for the depth of the node
    and for the depths below it; those that find no place are given back. -/
def place : (height : Nat) → (levels : List (List Nat)) → Huffman × List (List Nat)
  | _, [] => (.free, [])
  | _, (s :: ss) :: below => (.symbol s, ss :: below)
  | 0, [] :: below => (.free, [] :: below)
  | height + 1, [] :: below =>
    if below.all List.isEmpty then (.free, [] :: below)
    else
      let (zero, below) := place height below
      let (one, below) := place height below
      (.branch zero one, [] :: below)

/-- Every leaf has a symbol. -/
def isFull : Huffman → Bool
  | .free => false
  | .symbol _ => true
  | .branch zero one => zero.isFull && one.isFull

/-- The symbols with words of a length. -/
def symbolsOfLength (lengths : List Nat) (length : Nat) : List Nat :=
  (lengths.zipIdx.filter fun (l, _) => l = length).map Prod.snd

/-- The code with words of the given lengths; `none` if there is none. With `mayLack`
    a code of at most one word need not fill the tree. -/
def ofLengths? (mayLack : Bool) (lengths : List Nat) : Option Huffman :=
  let levels := [] :: (List.range maxLength).map fun i => symbolsOfLength lengths (i + 1)
  let (tree, left) := place maxLength levels
  let words := lengths.countP (0 < ·)
  if left.all List.isEmpty && (tree.isFull || (mayLack && words ≤ 1)) then some tree else none

/-- The symbol whose word is here, and the bits behind it. -/
def read? : Huffman → List Bool → Option (Nat × List Bool)
  | .symbol s, bs => some (s, bs)
  | .branch zero one, b :: bs => if b then one.read? bs else zero.read? bs
  | _, _ => none

end Huffman

end ManifestBundle.Gzip
