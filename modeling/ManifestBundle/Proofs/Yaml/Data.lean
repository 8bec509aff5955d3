import ManifestBundle.Proofs.Value
import ManifestBundle.Proofs.Yaml.Node
import ManifestBundle.Yaml.Data
import Mathlib.Data.List.Forall2

/-!
# The data tree of a node

Sequences are converted item by item and mappings entry by entry (`ofItems?_eq_some_iff`,
`ofMapping?_eq_some_iff`). The node of a readable value has this value as its data tree
(`ofNode?_node`), and every data tree that a document has is readable
(`isReadable_of_ofEvents?`): what has been read once can be written and read again.
-/

namespace ManifestBundle

open Value

/-! ## Related lists -/

section

variable {α β : Type} {R : α → β → Prop} {as : List α} {bs : List β}

theorem exists_of_mem_right (h : List.Forall₂ R as bs) : ∀ b ∈ bs, ∃ a ∈ as, R a b := by
  induction h with
  | nil => exact fun b hb => absurd hb List.not_mem_nil
  | cons hab _ ih =>
    intro b hb
    rcases List.mem_cons.1 hb with rfl | hb
    · exact ⟨_, List.mem_cons_self, hab⟩
    · obtain ⟨a, ha, hR⟩ := ih b hb
      exact ⟨a, List.mem_cons_of_mem _ ha, hR⟩

/-- Relations that agree on the members of the first list relate the same lists. -/
theorem forall₂_congr_of_mem {S : α → β → Prop} (h : ∀ a ∈ as, ∀ b, R a b ↔ S a b) :
    List.Forall₂ R as bs ↔ List.Forall₂ S as bs := by
  rw [List.forall₂_iff_zip, List.forall₂_iff_zip]
  refine and_congr_right fun _ => ⟨fun hR a b hab => ?_, fun hS a b hab => ?_⟩
  · exact (h a (List.of_mem_zip hab).1 b).1 (hR hab)
  · exact (h a (List.of_mem_zip hab).1 b).2 (hS hab)

end

/-! ## Data trees of lists -/

/-- The data trees of the items of a sequence are those of each item. -/
theorem Value.ofItems?_eq_some_iff {items : List Yaml.Node} {vs : List Value} :
    ofItems? items = some vs ↔ List.Forall₂ (fun n v => ofNode? n = some v) items vs := by
  induction items generalizing vs with
  | nil => rw [ofItems?, Option.some_inj, List.forall₂_nil_left_iff, eq_comm]
  | cons n items ih =>
    simp only [ofItems?, Option.bind_eq_bind, Option.bind_eq_some_iff, Option.pure_def,
      Option.some_inj, ih, List.forall₂_cons_left_iff]
    constructor
    · rintro ⟨v, hv, vs, hvs, rfl⟩
      exact ⟨v, vs, hv, hvs, rfl⟩
    · rintro ⟨v, vs, hv, hvs, rfl⟩
      exact ⟨v, hv, vs, hvs, rfl⟩

/-- The entries of a mapping are converted one by one, the keys by their spelling. -/
theorem Value.ofMapping?_eq_some_iff {entries : List (Yaml.Node × Yaml.Node)}
    {es : List (String × Value)} :
    ofMapping? entries = some es ↔
      entries.map (·.1.keyText?) = es.map (some ·.1) ∧
        List.Forall₂ (fun n v => ofNode? n = some v) (entries.map (·.2)) (es.map (·.2)) := by
  induction entries generalizing es with
  | nil =>
    rw [ofMapping?, Option.some_inj]
    cases es <;> simp
  | cons p entries ih =>
    obtain ⟨k, n⟩ := p
    simp only [ofMapping?, Option.bind_eq_bind, Option.bind_eq_some_iff, Option.pure_def,
      Option.some_inj, ih]
    constructor
    · rintro ⟨key, hkey, v, hv, es, ⟨hkeys, hvalues⟩, rfl⟩
      exact ⟨congrArg₂ List.cons hkey hkeys, .cons hv hvalues⟩
    · rintro ⟨hkeys, hvalues⟩
      cases es with
      | nil => nomatch hkeys
      | cons e es =>
        obtain ⟨hkey, hkeys⟩ := List.cons.inj hkeys
        obtain ⟨hv, hvalues⟩ := List.forall₂_cons.1 hvalues
        exact ⟨e.1, hkey, e.2, hv, es, ⟨hkeys, hvalues⟩, rfl⟩

/-! ## The data tree of the node of a value -/

/-- A number keeps its kind. -/
theorem Number.ofInt_toInt (i : Int64) : Number.ofInt i.toInt = .integer i := by
  have hlt : i.toInt < 2 ^ 63 := i.toInt_lt
  rw [Number.ofInt, if_pos hlt, Int64.ofInt_toInt]

/-- Numbers are read back as they have been. -/
theorem ofNode?_number (x : Number) : ofNode? x.node = some (.number x) := by
  cases x with
  | integer i => exact congrArg (fun x => some (Value.number x)) (Number.ofInt_toInt i)
  | float x => rfl

/-- Items are read back one by one. -/
theorem ofItems?_itemNodes {vs : List Value} (h : ∀ v ∈ vs, ofNode? v.node = some v) :
    ofItems? (itemNodes vs) = some vs := by
  induction vs with
  | nil => rfl
  | cons v vs ih =>
    rw [itemNodes, ofItems?, h v List.mem_cons_self, ih fun w hw => h w (List.mem_cons_of_mem v hw)]
    rfl

/-- Entries are read back one by one. -/
theorem ofMapping?_entryNodes {es : List (String × Value)}
    (h : ∀ e ∈ es, ofNode? e.2.node = some e.2) : ofMapping? (entryNodes es) = some es := by
  induction es with
  | nil => rfl
  | cons e es ih =>
    obtain ⟨key, v⟩ := e
    have hv : ofNode? v.node = some v := h (key, v) List.mem_cons_self
    rw [entryNodes, ofMapping?, hv, ih fun e he => h e (List.mem_cons_of_mem _ he)]
    rfl

theorem ofNode?_node_of_not_container {v : Value} (h : v.isContainer = false) :
    ofNode? v.node = some v := by
  match v with
  | .null | .bool _ | .text _ => rfl
  | .number x => exact ofNode?_number x

/-- The node of a readable value has this value as its data tree. -/
theorem ofNode?_node {depth : Nat} {v : Value} (h : v.IsReadable depth) :
    ofNode? v.node = some v := by
  induction depth generalizing v with
  | zero =>
    cases v with
    | sequence vs => exact (h : False).elim
    | map es => exact (h : False).elim
    | _ => exact ofNode?_node_of_not_container rfl
  | succ depth ih =>
    cases v with
    | sequence vs =>
      rw [node, ofNode?, ofItems?_itemNodes fun v hv => ih (h v hv)]
      rfl
    | map es =>
      rw [node, ofNode?, ofMapping?_entryNodes fun e he => ih (h.2 e he)]
      exact congrArg some (ofEntries_of_nodup h.1)
    | _ => exact ofNode?_node_of_not_container rfl

/-! ## Data trees that have been read -/

theorem Value.isReadable_of_not_container {depth : Nat} {v : Value} (h : v.isContainer = false) :
    v.IsReadable depth := by
  cases v with
  | sequence vs => nomatch h
  | map es => nomatch h
  | _ => cases depth <;> trivial

/-- A tag does not change what a node becomes. -/
theorem ofNode?_withTag (tag : Option Yaml.Tag) (n : Yaml.Node) :
    ofNode? (Yaml.withTag tag n) = ofNode? n := by
  rw [Yaml.withTag]
  split <;> rfl

namespace Yaml

/-- The data tree of the node, if it has one, is readable. -/
def Node.HasReadable (depth : Nat) (n : Node) : Prop :=
  ∀ v, ofNode? n = some v → v.IsReadable depth

variable {target? : Nat → Option Tree} {limit depth : Nat} {n : Node}

theorem hasReadable_withTag {tag : Option Tag} (h : n.HasReadable depth) :
    (withTag tag n).HasReadable depth := by
  intro v hv
  rw [ofNode?_withTag] at hv
  exact h v hv

/-- The node holds no other nodes. -/
def Node.isScalar : Node → Bool
  | .sequence _ | .mapping _ => false
  | .tagged _ n => n.isScalar
  | _ => true

/-- A scalar becomes a tree without parts. -/
theorem hasReadable_of_isScalar : ∀ {n : Node}, n.isScalar → n.HasReadable depth
  | .null, _ | .bool _, _ | .integer _, _ | .float _, _ | .text _, _ => by
    rintro _ ⟨⟩
    exact isReadable_of_not_container rfl
  | .tagged _ n, h => hasReadable_of_isScalar (n := n) h

theorem isScalar_withTag {tag : Option Tag} (h : n.isScalar) : (withTag tag n).isScalar := by
  rw [withTag]
  split <;> exact h

theorem all_isScalar_plainNode? (cs : List Char) : (plainNode? cs).all Node.isScalar := by
  unfold plainNode?
  repeat' split
  all_goals rfl

/-- A scalar is read as a scalar, whatever its tag. -/
theorem all_isScalar_scalarNode? (tag : Option Tag) (cs : List Char) (isPlain : Bool) :
    (scalarNode? tag cs isPlain).all Node.isScalar := by
  have huntagged : (untaggedNode? cs isPlain).all Node.isScalar := by
    rw [untaggedNode?]
    split
    · exact all_isScalar_plainNode? cs
    · rfl
  unfold scalarNode?
  split
  · exact huntagged
  · split_ifs
    · cases hnode : untaggedNode? cs isPlain with
      | none => rfl
      | some n =>
        rw [hnode] at huntagged
        exact isScalar_withTag huntagged
    · cases boolOf? cs <;> rfl
    · cases (integerOf? cs).filter isWord <;> rfl
    · cases floatOf? cs <;> rfl
    · rfl
    · rfl
    · rfl

theorem hasReadable_scalar {tag : Option Tag} {cs : List Char} {isPlain : Bool}
    (h : scalarNode? tag cs isPlain = some n) : n.HasReadable depth := by
  have hscalar := all_isScalar_scalarNode? tag cs isPlain
  rw [h] at hscalar
  exact hasReadable_of_isScalar hscalar

/-! ## Collections -/

theorem bind_eq_some {α β : Type} {x : StateT Nat Option α} {f : α → StateT Nat Option β}
    {count : Nat} {r : β × Nat} :
    (x >>= f) count = some r ↔ ∃ a count', x count = some (a, count') ∧ f a count' = some r := by
  change (x count).bind (fun p => f p.1 p.2) = some r ↔ _
  rw [Option.bind_eq_some_iff]
  exact ⟨fun ⟨p, hx, hf⟩ => ⟨p.1, p.2, hx, hf⟩, fun ⟨a, c, hx, hf⟩ => ⟨(a, c), hx, hf⟩⟩

/-- What is read of a list comes from its members. -/
theorem exists_of_mapM {α β : Type} {f : α → StateT Nat Option β} {xs : List α} {ys : List β}
    {count count' : Nat} (h : xs.mapM f count = some (ys, count')) :
    ∀ y ∈ ys, ∃ x c c', f x c = some (y, c') := by
  induction xs generalizing ys count count' with
  | nil =>
    obtain rfl : [] = ys := congrArg Prod.fst (Option.some.inj h)
    exact fun y hy => absurd hy List.not_mem_nil
  | cons x xs ih =>
    rw [List.mapM_cons, bind_eq_some] at h
    obtain ⟨y, c, hx, h⟩ := h
    rw [bind_eq_some] at h
    obtain ⟨ys', c', hxs, h⟩ := h
    obtain rfl : y :: ys' = ys := congrArg Prod.fst (Option.some.inj h)
    intro z hz
    rcases List.mem_cons.1 hz with rfl | hz
    · exact ⟨x, count, c, hx⟩
    · exact ih hxs z hz

/-- A sequence is one level deeper than its items. -/
theorem hasReadable_sequence {ns : List Node} (h : ∀ n ∈ ns, n.HasReadable depth) :
    (Node.sequence ns).HasReadable (depth + 1) := by
  intro v hv
  obtain ⟨vs, hvs, rfl⟩ := Option.map_eq_some_iff.1 hv
  intro w hw
  obtain ⟨n, hn, hnode⟩ := exists_of_mem_right (ofItems?_eq_some_iff.1 hvs) w hw
  exact h n hn w hnode

/-- A mapping is one level deeper than its values. -/
theorem hasReadable_mapping {entries : List (Node × Node)}
    (h : ∀ p ∈ entries, p.2.HasReadable depth) :
    (Node.mapping entries).HasReadable (depth + 1) := by
  intro v hv
  obtain ⟨es, hes, rfl⟩ := Option.map_eq_some_iff.1 hv
  obtain ⟨kept, hkept, hnodup, hmem⟩ := exists_ofEntries es
  -- Of the entries with one key the last one is kept.
  rw [hkept]
  refine ⟨hnodup, fun e he => ?_⟩
  have hvalue : e.2 ∈ es.map (·.2) := List.mem_map_of_mem (hmem e he)
  obtain ⟨m, hm, hnode⟩ := exists_of_mem_right (ofMapping?_eq_some_iff.1 hes).2 e.2 hvalue
  obtain ⟨p, hp, rfl⟩ := List.mem_map.1 hm
  exact h p hp e.2 hnode

/-! ## Documents -/

theorem hasReadable_of_scalarNode {tag : Option Tag} {cs : List Char} {isPlain : Bool}
    {count count' : Nat} (h : Tree.scalarNode tag cs isPlain count = some (n, count')) :
    n.HasReadable depth := by
  rw [Tree.scalarNode] at h
  cases hm : scalarNode? tag cs isPlain with
  | none =>
    rw [hm] at h
    cases h
  | some m =>
    rw [hm] at h
    obtain rfl : m = n := congrArg Prod.fst (Option.some.inj h)
    exact hasReadable_scalar hm

theorem exists_of_entryWithin {p : Tree × Tree} {q : Node × Node} {count count' : Nat}
    (h : entryWithin target? limit depth p count = some (q, count')) :
    ∃ c c', Tree.nodeWithin target? limit depth p.2 c = some (q.2, c') := by
  obtain ⟨k, c, -, h⟩ := bind_eq_some.1 h
  obtain ⟨m, c', hm, h⟩ := bind_eq_some.1 h
  obtain rfl : (k, m) = q := congrArg Prod.fst (Option.some.inj h)
  exact ⟨c, c', hm⟩

/-- What a tree stands for has a readable data tree. -/
theorem hasReadable_of_nodeWithin {t : Tree} {count count' : Nat}
    (h : Tree.nodeWithin target? limit depth t count = some (n, count')) :
    n.HasReadable depth := by
  induction depth generalizing t n count count' with
  | zero =>
    obtain ⟨t', c, -, h⟩ := bind_eq_some.1 h
    cases t' with
    | scalar tag cs isPlain => exact hasReadable_of_scalarNode h
    | _ => nomatch h
  | succ depth ih =>
    obtain ⟨t', c, -, h⟩ := bind_eq_some.1 h
    cases t' with
    | scalar tag cs isPlain => exact hasReadable_of_scalarNode h
    | sequence tag items =>
      obtain ⟨ns, c', hns, h⟩ := bind_eq_some.1 h
      obtain rfl : withTag tag (.sequence ns) = n := congrArg Prod.fst (Option.some.inj h)
      refine hasReadable_withTag (hasReadable_sequence fun m hm => ?_)
      obtain ⟨t, c₁, c₂, ht⟩ := exists_of_mapM hns m hm
      exact ih ht
    | mapping tag entries =>
      obtain ⟨ns, c', hns, h⟩ := bind_eq_some.1 h
      dsimp only at h
      split at h
      · -- A mapping with a repeated key has no node.
        obtain ⟨_, _, hfail, -⟩ := bind_eq_some.1 h
        nomatch hfail
      obtain rfl : withTag tag (.mapping ns) = n := congrArg Prod.fst (Option.some.inj h)
      refine hasReadable_withTag (hasReadable_mapping fun q hq => ?_)
      obtain ⟨p, c₁, c₂, hp⟩ := exists_of_mapM (f := entryWithin target? limit depth) hns q hq
      obtain ⟨c₃, c₄, ht⟩ := exists_of_entryWithin hp
      exact ih ht
    | _ => nomatch h

/-- A node of a document becomes a tree that can be written and read back. -/
theorem isReadable_of_ofEvents? {es : List Event} (h : Node.ofEvents? es = some n) :
    n.HasReadable Tree.maxDepth := by
  rw [Node.ofEvents?, Option.bind_eq_bind, Option.bind_eq_some_iff] at h
  obtain ⟨b, -, h⟩ := h
  rw [Option.bind_eq_bind, Option.bind_eq_some_iff] at h
  obtain ⟨root, -, h⟩ := h
  rw [Option.bind_eq_bind, Option.bind_eq_some_iff] at h
  obtain ⟨⟨m, count⟩, hread, h⟩ := h
  obtain rfl : m = n := Option.some.inj h
  exact hasReadable_of_nodeWithin hread

end Yaml

end ManifestBundle
