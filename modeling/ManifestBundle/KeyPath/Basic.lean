/-!
# Key paths

A key path leads from the root of a data tree to a value inside it, one
*segment* at a time: a key into a map or an index into a sequence. The empty path
is the root itself.
-/

namespace ManifestBundle

/-- One step of a key path. -/
inductive Segment where
  /-- The value of this key in a map. -/
  | key (text : String)
  /-- The item at this position, from zero, in a sequence. -/
  | index (position : UInt64)
deriving DecidableEq, Repr

/-- The segments from the root of a data tree to a value inside it. -/
structure KeyPath where
  segments : List Segment
deriving DecidableEq, Repr

namespace KeyPath

/-- The path to the root of the tree. -/
def root : KeyPath :=
  ⟨[]⟩

/-- The path one segment further down. -/
def child (p : KeyPath) (s : Segment) : KeyPath :=
  ⟨p.segments ++ [s]⟩

/-- The path that goes down `p` and from there down `q`. -/
def append (p q : KeyPath) : KeyPath :=
  ⟨p.segments ++ q.segments⟩

/-- The number of segments. -/
def length (p : KeyPath) : Nat :=
  p.segments.length

/-- The path is the one to the root. -/
def isRoot (p : KeyPath) : Bool :=
  p.segments.isEmpty

end KeyPath

end ManifestBundle
