import ManifestBundle.Bundle
import ManifestBundle.Yaml.Node
import Mathlib.Control.Monad.Basic

/-!
# Trees can be compared

Equality of trees and of nodes is decidable, part by part, and so is that of documents and of
bundles. So what a text is read as can be evaluated, be it trees, documents or an error.

* `Value.identical` is not `Value.equal`, which compares maps without the order of their entries;
* `Yaml.Node.identical` is not `Yaml.Node.same`, which tells the keys of a mapping apart.
-/

namespace ManifestBundle

/-! ## Trees -/

namespace Value

mutual

/-- The trees are the same, with their entries in the same order. -/
def identical : Value → Value → Bool
  | .null, .null => true
  | .bool b, .bool c => b = c
  | .number m, .number n => m = n
  | .text s, .text t => s = t
  | .sequence vs, .sequence ws => identicalItems vs ws
  | .map es, .map fs => identicalEntries es fs
  | _, _ => false
termination_by structural v => v

/-- The items of two sequences are the same. -/
def identicalItems : List Value → List Value → Bool
  | [], [] => true
  | v :: vs, w :: ws => v.identical w && identicalItems vs ws
  | _, _ => false
termination_by structural vs => vs

/-- The entries of two maps are the same. -/
def identicalEntries : List (String × Value) → List (String × Value) → Bool
  | [], [] => true
  | (s, v) :: es, (t, w) :: fs => s = t && v.identical w && identicalEntries es fs
  | _, _ => false
termination_by structural es => es

end

mutual

/-- Comparing part by part is equality of trees. -/
theorem identical_iff : (v w : Value) → (v.identical w = true ↔ v = w)
  | .null, w => by cases w <;> simp [identical]
  | .bool _, w => by cases w <;> simp [identical]
  | .number _, w => by cases w <;> simp [identical]
  | .text _, w => by cases w <;> simp [identical]
  | .sequence vs, w => by cases w <;> simp [identical, identicalItems_iff vs]
  | .map es, w => by cases w <;> simp [identical, identicalEntries_iff es]
termination_by structural v => v

theorem identicalItems_iff : (vs ws : List Value) → (identicalItems vs ws = true ↔ vs = ws)
  | [], ws => by cases ws <;> simp [identicalItems]
  | v :: vs, ws => by cases ws <;> simp [identicalItems, identical_iff v, identicalItems_iff vs]
termination_by structural vs => vs

theorem identicalEntries_iff :
    (es fs : List (String × Value)) → (identicalEntries es fs = true ↔ es = fs)
  | [], fs => by cases fs <;> simp [identicalEntries]
  | (s, v) :: es, fs => by
    cases fs <;>
      simp [identicalEntries, identical_iff v, identicalEntries_iff es, Prod.ext_iff, and_assoc]
termination_by structural es => es

end

instance : DecidableEq Value :=
  fun v w => decidable_of_iff _ (identical_iff v w)

end Value

/-! ## Nodes -/

namespace Yaml.Node

mutual

/-- The nodes are the same, with their entries in the same order. -/
def identical : Node → Node → Bool
  | .null, .null => true
  | .bool b, .bool c => b = c
  | .integer i, .integer j => i = j
  | .float x, .float y => x = y
  | .text s, .text t => s = t
  | .sequence ns, .sequence ms => identicalItems ns ms
  | .mapping es, .mapping fs => identicalEntries es fs
  | .tagged s n, .tagged t m => s = t && n.identical m
  | _, _ => false
termination_by structural n => n

/-- The items of two sequences are the same. -/
def identicalItems : List Node → List Node → Bool
  | [], [] => true
  | n :: ns, m :: ms => n.identical m && identicalItems ns ms
  | _, _ => false
termination_by structural ns => ns

/-- The entries of two mappings are the same. -/
def identicalEntries : List (Node × Node) → List (Node × Node) → Bool
  | [], [] => true
  | (k, n) :: es, (l, m) :: fs => k.identical l && n.identical m && identicalEntries es fs
  | _, _ => false
termination_by structural es => es

end

mutual

/-- Comparing part by part is equality of nodes. -/
theorem identical_iff : (n m : Node) → (n.identical m = true ↔ n = m)
  | .null, m => by cases m <;> simp [identical]
  | .bool _, m => by cases m <;> simp [identical]
  | .integer _, m => by cases m <;> simp [identical]
  | .float _, m => by cases m <;> simp [identical]
  | .text _, m => by cases m <;> simp [identical]
  | .sequence ns, m => by cases m <;> simp [identical, identicalItems_iff ns]
  | .mapping es, m => by cases m <;> simp [identical, identicalEntries_iff es]
  | .tagged _ n, m => by cases m <;> simp [identical, identical_iff n]
termination_by structural n => n

theorem identicalItems_iff : (ns ms : List Node) → (identicalItems ns ms = true ↔ ns = ms)
  | [], ms => by cases ms <;> simp [identicalItems]
  | n :: ns, ms => by cases ms <;> simp [identicalItems, identical_iff n, identicalItems_iff ns]
termination_by structural ns => ns

theorem identicalEntries_iff :
    (es fs : List (Node × Node)) → (identicalEntries es fs = true ↔ es = fs)
  | [], fs => by cases fs <;> simp [identicalEntries]
  | (k, n) :: es, fs => by
    cases fs <;>
      simp [identicalEntries, identical_iff k, identical_iff n, identicalEntries_iff es,
        Prod.ext_iff, and_assoc]
termination_by structural es => es

end

instance : DecidableEq Node :=
  fun n m => decidable_of_iff _ (identical_iff n m)

end Yaml.Node

/-! ## Documents -/

deriving instance DecidableEq for Document

deriving instance DecidableEq for Bundle

end ManifestBundle
