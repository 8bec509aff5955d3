import ManifestBundle.Proofs.Yaml.Tree

/-!
# The node of a value

The node that a value is written as (`Value.node`), and that its tree stands for it. The
tree is read if no more collections stand one in the other than a document may have, and
each map holds its keys once (`Value.IsReadable`).
-/

namespace ManifestBundle

namespace Value

mutual

/-- The node of a value. -/
def node : Value → Yaml.Node
  | .null => .null
  | .bool b => .bool b
  | .number x => x.node
  | .text s => .text s
  | .sequence vs => .sequence (itemNodes vs)
  | .map es => .mapping (entryNodes es)
termination_by structural v => v

/-- The nodes of the items of a sequence. -/
def itemNodes : List Value → List Yaml.Node
  | [] => []
  | v :: vs => node v :: itemNodes vs
termination_by structural vs => vs

/-- The nodes of the keys and values of a map. -/
def entryNodes : List (String × Value) → List (Yaml.Node × Yaml.Node)
  | [] => []
  | (key, v) :: es => (.text key, node v) :: entryNodes es
termination_by structural es => es

end

/-- At most `depth` collections stand one in the other, and no map has a key twice. -/
def IsReadable : (depth : Nat) → Value → Prop
  | 0, .sequence _ | 0, .map _ => False
  | depth + 1, .sequence vs => ∀ v ∈ vs, IsReadable depth v
  | depth + 1, .map es => (es.map Prod.fst).Nodup ∧ ∀ e ∈ es, IsReadable depth e.2
  | _, _ => True

end Value

namespace Yaml

/-! ## Scalars -/

/-- A plain scalar that is a text is the text that is written. -/
theorem eq_of_plainNode? {cs : List Char} {s : String} (h : plainNode? cs = some (.text s)) :
    s = String.ofList cs := by
  unfold plainNode? at h
  split at h
  · nomatch h
  · split at h
    · nomatch h
    · split at h
      · split at h <;> nomatch h
      · split at h
        · nomatch h
        · exact (Node.text.inj (Option.some.inj h)).symm

/-- A text that is written plain is not taken for anything else, and a quoted one never is. -/
theorem scalarNode?_text (s : String) :
    scalarNode? none s.toList (ScalarStyle.of s.toList == .plain) = some (.text s) := by
  rw [scalarNode?, untaggedNode?]
  split
  · next hplain =>
    have hambiguous := not_isAmbiguous_of_plain (eq_of_beq hplain)
    rw [isAmbiguous] at hambiguous
    split at hambiguous
    · next t hnode =>
      rw [hnode, eq_of_plainNode? hnode, String.ofList_toList]
    · nomatch hambiguous
  · rw [String.ofList_toList]

/-! ## Collections -/

section

variable {target? : Nat → Option Tree} {limit depth : Nat}

theorem nodeWithin_scalar (tag : Option Tag) (cs : List Char) (isPlain : Bool) :
    Tree.nodeWithin target? limit depth (.scalar tag cs isPlain) =
      Tree.scalarNode tag cs isPlain := by
  cases depth <;> rfl

theorem scalarNode_of_some {tag : Option Tag} {cs : List Char} {isPlain : Bool} {n : Node}
    (h : scalarNode? tag cs isPlain = some n) (count : Nat) :
    Tree.scalarNode tag cs isPlain count = some (n, count) := by
  rw [Tree.scalarNode, h]
  rfl

/-- The trees are read as the given nodes, and no alias is followed. -/
def ReadAs (target? : Nat → Option Tree) (limit depth : Nat) (t : Tree) (n : Node) : Prop :=
  ∀ count, Tree.nodeWithin target? limit depth t count = some (n, count)

/-- Items are read one by one, if each of them is. -/
theorem mapM_itemTrees {vs : List Value}
    (h : ∀ v ∈ vs, ReadAs target? limit depth (nodeTree v) v.node) (count : Nat) :
    (itemTrees vs).mapM (Tree.nodeWithin target? limit depth) count =
      some (Value.itemNodes vs, count) := by
  induction vs with
  | nil => rfl
  | cons v vs ih =>
    have hv := h v List.mem_cons_self count
    have hvs := ih fun w hw => h w (List.mem_cons_of_mem v hw)
    rw [itemTrees, List.mapM_cons]
    simp only [StateT.bind, bind, hv, Option.bind_some, hvs]
    rfl

/-- The nodes that a key and its value stand for. -/
def entryWithin (target? : Nat → Option Tree) (limit depth : Nat) :
    Tree × Tree → StateT Nat Option (Node × Node)
  | (k, v) => do
    return (← Tree.nodeWithin target? limit depth k, ← Tree.nodeWithin target? limit depth v)

theorem nodeWithin_mapping (tag : Option Tag) (entries : List (Tree × Tree)) :
    Tree.nodeWithin target? limit (depth + 1) (.mapping tag entries) = (do
      let entries ← entries.mapM (entryWithin target? limit depth)
      if Node.hasRepeatedKey entries then failure
      return withTag tag (.mapping entries)) :=
  rfl

/-- Entries are read one by one, if each of their values is. -/
theorem mapM_entryTrees {es : List (String × Value)}
    (h : ∀ e ∈ es, ReadAs target? limit depth (nodeTree e.2) e.2.node) (count : Nat) :
    (entryTrees es).mapM (entryWithin target? limit depth) count =
      some (Value.entryNodes es, count) := by
  induction es with
  | nil => rfl
  | cons e es ih =>
    obtain ⟨key, v⟩ := e
    have hkey := scalarNode_of_some (scalarNode?_text key) count
    have hv := h (key, v) List.mem_cons_self count
    have hes := ih fun e he => h e (List.mem_cons_of_mem _ he)
    have hentry : entryWithin target? limit depth
        (.scalar none key.toList (ScalarStyle.of key.toList == .plain), nodeTree v) count =
        some ((.text key, v.node), count) := by
      simp only [entryWithin, nodeWithin_scalar, StateT.bind, bind, hkey, hv, Option.bind_some]
      rfl
    rw [entryTrees.eq_def, List.mapM_cons]
    simp only [StateT.bind, bind, hentry, Option.bind_some, hes]
    rfl

/-- Keys that are different texts are different nodes. -/
theorem not_hasRepeatedKey {es : List (String × Value)} (h : (es.map Prod.fst).Nodup) :
    Node.hasRepeatedKey (Value.entryNodes es) = false := by
  induction es with
  | nil => rfl
  | cons e es ih =>
    obtain ⟨key, v⟩ := e
    rw [List.map_cons, List.nodup_cons] at h
    have hkey : (Value.entryNodes es).any (fun e => Node.same (.text key) e.1) = false := by
      have hmem := h.1
      clear ih h
      induction es with
      | nil => rfl
      | cons e es ih =>
        rw [List.map_cons, List.mem_cons, not_or] at hmem
        rw [Value.entryNodes, List.any_cons, ih hmem.2, Bool.or_false]
        exact beq_false_of_ne hmem.1
    rw [Value.entryNodes, Node.hasRepeatedKey]
    simp only [hkey, ih h.2, Bool.or_self]

theorem readAs_scalar {cs : List Char} {isPlain : Bool} {n : Node}
    (h : scalarNode? none cs isPlain = some n) :
    ReadAs target? limit depth (.scalar none cs isPlain) n := by
  intro count
  rw [nodeWithin_scalar]
  exact scalarNode_of_some h count

/-- A sequence is read one level deeper than its items. -/
theorem readAs_sequence {vs : List Value}
    (h : ∀ v ∈ vs, ReadAs target? limit depth (nodeTree v) v.node) :
    ReadAs target? limit (depth + 1) (nodeTree (.sequence vs)) (Value.sequence vs).node := by
  intro count
  have hnode : Tree.nodeWithin target? limit (depth + 1) (.sequence none (itemTrees vs)) = (do
      return withTag none
        (.sequence (← (itemTrees vs).mapM (Tree.nodeWithin target? limit depth)))) := rfl
  rw [nodeTree, hnode]
  simp only [StateT.bind, bind, mapM_itemTrees h count, Option.bind_some]
  rfl

/-- A map is read one level deeper than its values, if no key comes twice. -/
theorem readAs_map {es : List (String × Value)} (hkeys : (es.map Prod.fst).Nodup)
    (h : ∀ e ∈ es, ReadAs target? limit depth (nodeTree e.2) e.2.node) :
    ReadAs target? limit (depth + 1) (nodeTree (.map es)) (Value.map es).node := by
  intro count
  rw [nodeTree, nodeWithin_mapping]
  simp only [StateT.bind, bind, mapM_entryTrees h count, Option.bind_some,
    not_hasRepeatedKey hkeys]
  rfl

theorem readAs_of_not_container {v : Value} (h : v.isContainer = false) :
    ReadAs target? limit depth (nodeTree v) v.node := by
  match v with
  | .null => exact readAs_scalar rfl
  | .bool true => exact readAs_scalar rfl
  | .bool false => exact readAs_scalar rfl
  | .number x => exact readAs_scalar (plainNode?_printNumber x)
  | .text s => exact readAs_scalar (scalarNode?_text s)

/-- The tree of a readable value is read as its node. -/
theorem readAs_nodeTree {v : Value} (h : v.IsReadable depth) :
    ReadAs target? limit depth (nodeTree v) v.node := by
  induction depth generalizing v with
  | zero =>
    cases v with
    | sequence vs => exact (h : False).elim
    | map es => exact (h : False).elim
    | _ => exact readAs_of_not_container rfl
  | succ depth ih =>
    cases v with
    | sequence vs => exact readAs_sequence fun v hv => ih (h v hv)
    | map es => exact readAs_map h.1 fun e he => ih (h.2 e he)
    | _ => exact readAs_of_not_container rfl

end

/-- The events of a readable value stand for its node. -/
theorem ofEvents?_nodeEvents {v : Value} (h : v.IsReadable Tree.maxDepth) :
    Node.ofEvents? (nodeEvents v) = some v.node := by
  obtain ⟨b, hb, hroot⟩ := foldlM_nodeEvents v
  have hread : (Tree.nodeWithin b.target? (100 * (nodeEvents v).length) Tree.maxDepth
      (nodeTree v)).run 0 = some (v.node, 0) := readAs_nodeTree h 0
  simp only [Node.ofEvents?, hb, hroot, hread, Option.bind_eq_bind, Option.bind_some,
    Option.pure_def]

end Yaml

end ManifestBundle
