import ManifestBundle.Binary64.Basic

/-!
# Nodes of a YAML document

What a document says: scalars of several kinds, sequences, mappings with keys of
any kind, and tagged nodes. The nodes of a document have no two keys of a mapping
that are the same (`Node.same`): keys are the same if they hold the same data,
whatever the order of the entries in a mapping; an integer is never the same as a
floating point number, and not a number is the same as itself.
-/

namespace ManifestBundle.Yaml

/-- A node of a document. -/
inductive Node where
  | null
  | bool (b : Bool)
  | integer (i : Int)
  | float (x : Binary64)
  | text (s : String)
  | sequence (items : List Node)
  | mapping (entries : List (Node × Node))
  /-- A node with an application's own tag, without the mark in front of it. -/
  | tagged (tag : String) (content : Node)

namespace Node

instance : Inhabited Node :=
  ⟨.null⟩

/-- The node is null, with or without a tag. -/
def isNull : Node → Bool
  | .null => true
  | .tagged _ n => n.isNull
  | _ => false

/-- A tag without the exclamation mark in front of it, unless that is all of it. -/
def bareTag (tag : String) : List Char :=
  match tag.toList with
  | '!' :: c :: cs => c :: cs
  | cs => cs

/-- The floating point numbers are the same key. -/
def sameFloat (x y : Binary64) : Bool :=
  x.agrees y || (x = .nan && y = .nan)

mutual

/-- The nodes are the same key. -/
def same : Node → Node → Bool
  | .null, .null => true
  | .bool a, .bool b => a == b
  | .integer i, .integer j => i == j
  | .float x, .float y => sameFloat x y
  | .text s, .text t => s == t
  | .sequence as, .sequence bs => sameItems as bs
  | .mapping as, .mapping bs => as.length == bs.length && sameEntries as bs
  | .tagged s a, .tagged t b => bareTag s == bareTag t && same a b
  | _, _ => false
termination_by structural n => n

/-- The sequences hold the same items at the same positions. -/
def sameItems : List Node → List Node → Bool
  | [], [] => true
  | a :: as, b :: bs => same a b && sameItems as bs
  | _, _ => false
termination_by structural as => as

/-- Every entry of the first mapping is in the second. -/
def sameEntries : List (Node × Node) → List (Node × Node) → Bool
  | [], _ => true
  | (k, v) :: as, bs => (bs.any fun (k', v') => same k k' && same v v') && sameEntries as bs
termination_by structural as => as

end

/-- Two keys of the mapping are the same. -/
def hasRepeatedKey : List (Node × Node) → Bool
  | [] => false
  | (k, _) :: entries => (entries.any fun (k', _) => same k k') || hasRepeatedKey entries

end Node

end ManifestBundle.Yaml
