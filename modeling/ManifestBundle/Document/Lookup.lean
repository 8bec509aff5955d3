import ManifestBundle.DocumentError

/-!
# Looking up data by key path

A path leads down the data tree of a document, a key into a map and an index into
a sequence. Wherever it stops short, the error names the document and the whole
path that was asked for; so does one for a value of another shape than wanted.
-/

namespace ManifestBundle

/-- The value one segment further down. -/
def Value.step? (v : Value) : Segment → Option Value
  | .key k => v.get? k
  | .index i => v.item? i.toNat

/-- The value that the segments lead to. -/
def Value.resolve? (v : Value) : List Segment → Option Value
  | [] => some v
  | s :: rest => (v.step? s).bind (·.resolve? rest)

namespace Document

/-- What the path leads to, seen through `view`. -/
def lookupAs {α : Type} (view : Value → Option α) (d : Document) (path : KeyPath) :
    Except DocumentError α :=
  match (d.data.resolve? path.segments).bind view with
  | some a => .ok a
  | none => .error (.keyNotFound d.name path)

/-- The value that the path leads to. -/
def lookup (d : Document) (path : KeyPath) : Except DocumentError Value :=
  d.lookupAs some path

/-- The text that the path leads to. -/
def lookupText (d : Document) (path : KeyPath) : Except DocumentError String :=
  d.lookupAs Value.text? path

/-- The integer that the path leads to. -/
def lookupInteger (d : Document) (path : KeyPath) : Except DocumentError Int64 :=
  d.lookupAs Value.integer? path

/-- The truth value that the path leads to. -/
def lookupBool (d : Document) (path : KeyPath) : Except DocumentError Bool :=
  d.lookupAs Value.bool? path

/-- The entries of the map that the path leads to. -/
def lookupEntries (d : Document) (path : KeyPath) : Except DocumentError (List (String × Value)) :=
  d.lookupAs Value.entries? path

/-- The items of the sequence that the path leads to. -/
def lookupItems (d : Document) (path : KeyPath) : Except DocumentError (List Value) :=
  d.lookupAs Value.items? path

/-- The value that the path in a text leads to. -/
def lookupPath (d : Document) (text : String) : Except DocumentError Value :=
  match KeyPath.parse text with
  | .ok path => d.lookup path
  | .error cause => .error (.invalidPath text cause)

end Document

end ManifestBundle
