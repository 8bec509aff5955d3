import ManifestBundle.Binary64.Notation
import ManifestBundle.Text.Digit

/-!
# Data trees

What a manifest says, below its identity: maps with text keys, sequences and
scalars. A map keeps its entries in the order in which their keys first came;
`put` replaces the value of a key that is there and adds any other key at the end,
so a map built by it holds each key once (`Value.ofEntries`).

Two trees are *equal* if they hold the same data: the order of the entries of a map
does not count, and floating point numbers compare as numbers do, so not a number
equals nothing.
-/

namespace ManifestBundle

/-- A number in a data tree. -/
inductive Number where
  | integer (i : Int64)
  | float (x : Binary64)
deriving DecidableEq

namespace Number

/-- The text of the number, with every digit in its place. -/
def text : Number → String
  | .integer i => String.ofList (Text.integer i.toInt)
  | .float x => String.ofList x.plain

/-- The number as a floating point number, rounded if it is a large integer. -/
def toBinary64 : Number → Binary64
  | .integer i => .ofInt i.toInt
  | .float x => x

/-- The number is an integer. -/
def isInteger : Number → Bool
  | .integer _ => true
  | .float _ => false

/-- The numbers are of one kind and compare equal. -/
def equal : Number → Number → Bool
  | .integer i, .integer j => i == j
  | .float x, .float y => x.agrees y
  | _, _ => false

end Number

/-! ## Trees -/

/-- A node of a data tree. -/
inductive Value where
  | null
  | bool (b : Bool)
  | number (n : Number)
  | text (s : String)
  | sequence (items : List Value)
  /-- Keys and values in the order in which the keys first came. -/
  | map (entries : List (String × Value))

namespace Value

instance : Inhabited Value :=
  ⟨.null⟩

/-- The entries with the value of one key replaced, or added at the end. -/
def put (key : String) (value : Value) : List (String × Value) → List (String × Value)
  | [] => [(key, value)]
  | (k, v) :: rest => if k = key then (k, value) :: rest else (k, v) :: put key value rest

/-- The map that holds the given entries; of a key that occurs again, the first place
    and the last value count. -/
def ofEntries (entries : List (String × Value)) : Value :=
  .map (entries.foldl (fun acc (k, v) => put k v acc) [])

/-- The name of the kind of node, as it stands in messages. -/
def kindName : Value → String
  | .null => "null"
  | .bool _ => "bool"
  | .number _ => "number"
  | .text _ => "string"
  | .sequence _ => "sequence"
  | .map _ => "map"

/-! ## Parts of a tree -/

/-- The value of a key, if the node is a map that has it. -/
def get? (v : Value) (key : String) : Option Value :=
  match v with
  | .map entries => entries.lookup key
  | _ => none

/-- The item at a position, if the node is a sequence that reaches so far. -/
def item? (v : Value) (position : Nat) : Option Value :=
  match v with
  | .sequence items => items[position]?
  | _ => none

/-- The text, if the node is one. -/
def text? : Value → Option String
  | .text s => some s
  | _ => none

/-- The integer, if the node is one; a floating point number is not. -/
def integer? : Value → Option Int64
  | .number (.integer i) => some i
  | _ => none

/-- The truth value, if the node is one. -/
def bool? : Value → Option Bool
  | .bool b => some b
  | _ => none

/-- The entries, if the node is a map. -/
def entries? : Value → Option (List (String × Value))
  | .map entries => some entries
  | _ => none

/-- The items, if the node is a sequence. -/
def items? : Value → Option (List Value)
  | .sequence items => some items
  | _ => none

/-- The number, if the node is one. -/
def number? : Value → Option Number
  | .number n => some n
  | _ => none

/-- The node is a map. -/
def isMap (v : Value) : Bool :=
  v.entries?.isSome

/-- The node is a sequence. -/
def isSequence (v : Value) : Bool :=
  v.items?.isSome

/-- The node holds other nodes: it is a map or a sequence. -/
def isContainer (v : Value) : Bool :=
  v.isMap || v.isSequence

/-- The node is null. -/
def isNull : Value → Bool
  | .null => true
  | _ => false

/-- The text that a scalar stands for in a name or label; null stands for the empty
    text, and a map or a sequence for none. -/
def scalarText? : Value → Option String
  | .null => some ""
  | .bool b => some (if b then "true" else "false")
  | .number n => some n.text
  | .text s => some s
  | .sequence _ | .map _ => none

mutual

/-- The trees hold the same data. -/
def equal : Value → Value → Bool
  | .null, .null => true
  | .bool a, .bool b => a == b
  | .number m, .number n => m.equal n
  | .text s, .text t => s == t
  | .sequence as, .sequence bs => equalItems as bs
  | .map as, .map bs => as.length == bs.length && equalEntries as bs
  | _, _ => false
termination_by structural v => v

/-- The sequences have equal items at equal positions. -/
def equalItems : List Value → List Value → Bool
  | [], [] => true
  | a :: as, b :: bs => equal a b && equalItems as bs
  | _, _ => false
termination_by structural as => as

/-- Every entry of the first map has an equal value in the second. -/
def equalEntries : List (String × Value) → List (String × Value) → Bool
  | [], _ => true
  | (k, a) :: as, bs =>
    (match bs.lookup k with
      | some b => equal a b
      | none => false) && equalEntries as bs
termination_by structural as => as

end

end Value

end ManifestBundle
