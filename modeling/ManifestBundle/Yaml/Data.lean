import ManifestBundle.Value
import ManifestBundle.Yaml.Node
import ManifestBundle.Yaml.Number

/-!
# The data tree of a YAML node

A data tree has text keys only, so the scalar keys of a mapping are taken by their
spelling, and a mapping with another key has no data tree. Tags are dropped. An
integer that takes 64 bits without a sign becomes a floating point number.
-/

namespace ManifestBundle

-- Powers are the ones of the core library, also where Mathlib has its own.
attribute [local instance (high)] instPowNat

/-- The key that a node stands for; a collection stands for none. -/
def Yaml.Node.keyText? : Yaml.Node → Option String
  | .null => some "null"
  | .bool b => some (if b then "true" else "false")
  | .integer i => some (String.ofList (Text.integer i))
  | .float x => some (String.ofList (Yaml.floatText x))
  | .text s => some s
  | .tagged _ n => n.keyText?
  | .sequence _ | .mapping _ => none

/-- The number that an integer becomes. -/
def Number.ofInt (i : Int) : Number :=
  if i < 2 ^ (63 : Nat) then .integer (Int64.ofInt i) else .float (.ofInt i)

namespace Value

mutual

/-- The data tree of a node; `none` if a mapping in it has a collection as a key. -/
def ofNode? : Yaml.Node → Option Value
  | .null => some .null
  | .bool b => some (.bool b)
  | .integer i => some (.number (.ofInt i))
  | .float x => some (.number (.float x))
  | .text s => some (.text s)
  | .sequence items => (ofItems? items).map .sequence
  | .mapping entries => (ofMapping? entries).map ofEntries
  | .tagged _ n => ofNode? n
termination_by structural n => n

/-- The data trees of the items of a sequence. -/
def ofItems? : List Yaml.Node → Option (List Value)
  | [] => some []
  | n :: ns => do
    let v ← ofNode? n
    return v :: (← ofItems? ns)
termination_by structural ns => ns

/-- The keys and data trees of the entries of a mapping. -/
def ofMapping? : List (Yaml.Node × Yaml.Node) → Option (List (String × Value))
  | [] => some []
  | (k, n) :: entries => do
    let key ← k.keyText?
    let v ← ofNode? n
    return (key, v) :: (← ofMapping? entries)
termination_by structural entries => entries

end

end Value

end ManifestBundle
