import ManifestBundle.Yaml.Event
import ManifestBundle.Yaml.Scalar

/-!
# Nodes as they are written

A tree is a document as it is written: a node may stand elsewhere in it and be
pointed to by an alias. The tree is built from events (`Tree.ofEvents?`), and
`Tree.node?` puts the nodes in the place of the aliases and tells what the scalars
stand for.

Each new name of an anchor gets a number, and a name that is given again gets the
number of names so far. An alias has the number that its name has at that place, and
points to the last anchor of the document that has this number.
-/

namespace ManifestBundle.Yaml

/-- A node as it is written. -/
inductive Tree where
  /-- The number of an anchor. -/
  | alias (number : Nat)
  | scalar (tag : Option Tag) (text : List Char) (isPlain : Bool)
  | sequence (tag : Option Tag) (items : List Tree)
  | mapping (tag : Option Tag) (entries : List (Tree × Tree))

namespace Tree

/-! ## Building a tree -/

/-- A collection that is not finished. -/
structure Frame where
  isMapping : Bool
  tag : Option Tag
  /-- The position of its first event, if it has an anchor. -/
  anchored : Option Nat
  /-- The nodes in it so far, the last one first. -/
  children : List Tree := []

/-- What has been built from the events so far. -/
structure Builder where
  /-- The number of events. -/
  position : Nat := 0
  /-- The anchors' names and their numbers. -/
  names : List (List Char × Nat) := []
  /-- The numbers of anchors and the positions of the events they are at, the last
      one first. -/
  targets : List (Nat × Nat) := []
  /-- The finished nodes with an anchor, by the positions of their first events. -/
  anchored : List (Nat × Tree) := []
  /-- The collections that are not finished, from the inside. -/
  frames : List Frame := []
  /-- The root, once it is finished. -/
  root : Option Tree := none

/-- The names with one of them given a number. -/
def assign (name : List Char) (number : Nat) :
    List (List Char × Nat) → List (List Char × Nat)
  | [] => [(name, number)]
  | (n, i) :: rest => if n = name then (name, number) :: rest else (n, i) :: assign name number rest

/-- The keys and values of a mapping, from its nodes in order. -/
def pairs : List Tree → List (Tree × Tree)
  | k :: v :: rest => (k, v) :: pairs rest
  | _ => []

namespace Builder

/-- Takes note of the anchor of the event here. -/
def note (b : Builder) (anchor : Option (List Char)) : Builder :=
  match anchor with
  | none => b
  | some name =>
    -- A name that is given again does not add to the count, so its number may be taken.
    let number := b.names.length
    { b with names := assign name number b.names, targets := (number, b.position) :: b.targets }

/-- Puts a finished node in its place. -/
def place (b : Builder) (t : Tree) : Builder :=
  match b.frames with
  | [] => { b with root := some t }
  | f :: fs => { b with frames := { f with children := t :: f.children } :: fs }

/-- Puts a finished node that may have an anchor in its place. -/
def finish (b : Builder) (anchored : Option Nat) (t : Tree) : Builder :=
  match anchored with
  | none => b.place t
  | some position => { b.place t with anchored := (position, t) :: b.anchored }

/-- Opens a collection. -/
def openFrame (b : Builder) (p : Properties) (isMapping : Bool) : Builder :=
  let b' := b.note p.anchor
  { b' with frames := ⟨isMapping, p.tag, p.anchor.map fun _ => b.position, []⟩ :: b'.frames }

/-- Closes the innermost collection. -/
def closeFrame (b : Builder) : Builder :=
  match b.frames with
  | [] => b
  | f :: fs =>
    let children := f.children.reverse
    finish { b with frames := fs } f.anchored
      (if f.isMapping then .mapping f.tag (pairs children) else .sequence f.tag children)

/-- Takes in an event; `none` for an alias of a name that no anchor has. -/
def take? (b : Builder) (e : Event) : Option Builder :=
  let done (b : Builder) := { b with position := b.position + 1 }
  match e with
  | .alias name => (b.names.lookup name).map fun number => done (b.place (.alias number))
  | .scalar p text isPlain =>
    some (done ((b.note p.anchor).finish (p.anchor.map fun _ => b.position)
      (.scalar p.tag text isPlain)))
  | .sequenceStart p => some (done (b.openFrame p false))
  | .mappingStart p => some (done (b.openFrame p true))
  | .sequenceEnd | .mappingEnd => some (done b.closeFrame)

end Builder

/-- The node that an alias points to. -/
def Builder.target? (b : Builder) (number : Nat) : Option Tree :=
  (b.targets.lookup number).bind fun position => b.anchored.lookup position

/-! ## What a tree stands for -/

/-- The number of collections that may stand one in the other. -/
def maxDepth : Nat :=
  128

/-- Follows an alias. Counts the aliases followed so far and fails beyond `limit`. -/
def follow (target? : Nat → Option Tree) (limit : Nat) (t : Tree) : StateT Nat Option Tree := do
  match t with
  | .alias number =>
    let count := (← get) + 1
    if limit < count then failure
    set count
    match target? number with
    | some t => return t
    | none => failure
  | t => return t

/-- The node that a scalar stands for. -/
def scalarNode (tag : Option Tag) (text : List Char) (isPlain : Bool) : StateT Nat Option Node :=
  match scalarNode? tag text isPlain with
  | some n => return n
  | none => failure

/-- The node that a tree stands for, with at most `depth` collections one in the
    other. -/
def nodeWithin (target? : Nat → Option Tree) (limit : Nat) : Nat → Tree → StateT Nat Option Node
  | 0, t => do
    match ← follow target? limit t with
    | .scalar tag text isPlain => scalarNode tag text isPlain
    | _ => failure
  | depth + 1, t => do
    match ← follow target? limit t with
    | .scalar tag text isPlain => scalarNode tag text isPlain
    | .sequence tag items =>
      return withTag tag (.sequence (← items.mapM (nodeWithin target? limit depth)))
    | .mapping tag entries =>
      let entries ← entries.mapM fun (k, v) => do
        return (← nodeWithin target? limit depth k, ← nodeWithin target? limit depth v)
      if Node.hasRepeatedKey entries then failure
      return withTag tag (.mapping entries)
    | .alias _ => failure

end Tree

/-- The node that the events of a document stand for. -/
def Node.ofEvents? (es : List Event) : Option Node := do
  let b ← es.foldlM Tree.Builder.take? {}
  let root ← b.root
  let (n, _) ← (Tree.nodeWithin b.target? (100 * es.length) Tree.maxDepth root).run 0
  return n

end ManifestBundle.Yaml
