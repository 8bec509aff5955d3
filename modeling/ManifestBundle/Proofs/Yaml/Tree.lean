import ManifestBundle.Proofs.Yaml.Event
import ManifestBundle.Yaml.Tree

/-!
# Building the tree of a value

The events of a value build its tree (`nodeTree`), and put it where a node is expected:
in the collection that is open, or at the root (`Builds`). There is nothing in it that has
an anchor or a tag, so of the builder only its place and its position change.
-/

namespace ManifestBundle.Yaml

/-! ## Tree of a value -/

mutual

/-- The tree of a value. -/
def nodeTree : Value → Tree
  | .null => .scalar none ['n', 'u', 'l', 'l'] true
  | .bool true => .scalar none ['t', 'r', 'u', 'e'] true
  | .bool false => .scalar none ['f', 'a', 'l', 's', 'e'] true
  | .number x => .scalar none (printNumber x) true
  | .text s => .scalar none s.toList (ScalarStyle.of s.toList == .plain)
  | .sequence vs => .sequence none (itemTrees vs)
  | .map es => .mapping none (entryTrees es)
termination_by structural v => v

/-- The trees of the items of a sequence. -/
def itemTrees : List Value → List Tree
  | [] => []
  | v :: vs => nodeTree v :: itemTrees vs
termination_by structural vs => vs

/-- The trees of the keys and values of a map. -/
def entryTrees : List (String × Value) → List (Tree × Tree)
  | [] => []
  | (key, v) :: es =>
    (.scalar none key.toList (ScalarStyle.of key.toList == .plain), nodeTree v) :: entryTrees es
termination_by structural es => es

end

/-- The keys and values of a mapping, one behind the other. -/
def flattened (entries : List (Tree × Tree)) : List Tree :=
  entries.flatMap fun (k, v) => [k, v]

/-- Keys and values in turn are paired as they have been. -/
theorem pairs_flattened (entries : List (Tree × Tree)) :
    Tree.pairs (flattened entries) = entries := by
  induction entries with
  | nil => rfl
  | cons e entries ih => exact congrArg (e :: ·) ih

/-! ## Placing trees -/

namespace Tree.Builder

/-- Puts finished nodes in their places, one after the other. -/
def placeAll (b : Builder) (ts : List Tree) : Builder :=
  ts.foldl place b

/-- Placing a tree does not depend on the position. -/
theorem place_position (b : Builder) (n : Nat) (t : Tree) :
    place { b with position := n } t = { b.place t with position := n } := by
  cases h : b.frames <;> simp [place, h]

theorem placeAll_position (b : Builder) (n : Nat) (ts : List Tree) :
    placeAll { b with position := n } ts = { b.placeAll ts with position := n } := by
  induction ts generalizing b with
  | nil => rfl
  | cons t ts ih =>
    rw [placeAll, List.foldl_cons, place_position]
    exact ih (b.place t)

/-- Nodes are collected in the innermost collection. -/
theorem placeAll_frame (b : Builder) (f : Frame) (fs : List Frame) (ts : List Tree) :
    placeAll { b with frames := f :: fs } ts =
      { b with frames := { f with children := ts.reverse ++ f.children } :: fs } := by
  induction ts generalizing f with
  | nil => rfl
  | cons t ts ih =>
    rw [placeAll, List.foldl_cons]
    refine (ih { f with children := t :: f.children }).trans ?_
    simp

end Tree.Builder

/-! ## Building -/

/-- The events build the given trees, whatever has been built before. -/
def Builds (es : List Event) (ts : List Tree) : Prop :=
  ∀ b : Tree.Builder, ∃ n,
    es.foldlM Tree.Builder.take? b = some { b.placeAll ts with position := n }

theorem builds_nil : Builds [] [] :=
  fun b => ⟨b.position, rfl⟩

/-- Events of several trees build them one after the other. -/
theorem Builds.append {es es' : List Event} {ts ts' : List Tree} (h : Builds es ts)
    (h' : Builds es' ts') : Builds (es ++ es') (ts ++ ts') := by
  intro b
  obtain ⟨n, hn⟩ := h b
  obtain ⟨n', hn'⟩ := h' { b.placeAll ts with position := n }
  refine ⟨n', ?_⟩
  rw [List.foldlM_append, hn, Option.bind_eq_bind, Option.bind_some, hn',
    Tree.Builder.placeAll_position, Tree.Builder.placeAll, Tree.Builder.placeAll,
    Tree.Builder.placeAll, List.foldl_append]

theorem builds_scalar (cs : List Char) (isPlain : Bool) :
    Builds [.scalar {} cs isPlain] [.scalar none cs isPlain] :=
  fun b => ⟨(b.place (.scalar none cs isPlain)).position + 1, rfl⟩

/-- The tree of a collection without a tag. -/
def collection (isMapping : Bool) (ts : List Tree) : Tree :=
  if isMapping then .mapping none (Tree.pairs ts) else .sequence none ts

/-- What is built between the start and the end of a collection is put in it. -/
theorem foldlM_frame {es : List Event} {ts : List Tree} (h : Builds es ts) (b : Tree.Builder)
    (isMapping : Bool) {last : Event} (hlast : last = .sequenceEnd ∨ last = .mappingEnd) :
    ∃ n, (es ++ [last]).foldlM Tree.Builder.take? (b.openFrame {} isMapping) =
      some { b.place (collection isMapping ts) with position := n } := by
  obtain ⟨n, hn⟩ := h (b.openFrame {} isMapping)
  have hframe : (b.openFrame {} isMapping).placeAll ts =
      { b with frames := ⟨isMapping, none, none, ts.reverse ++ []⟩ :: b.frames } :=
    b.placeAll_frame ⟨isMapping, none, none, []⟩ b.frames ts
  have hclose : Tree.Builder.closeFrame { b with
      position := n, frames := ⟨isMapping, none, none, ts.reverse ++ []⟩ :: b.frames } =
      { b.place (collection isMapping ts) with position := n } := by
    rw [← Tree.Builder.place_position]
    simp [Tree.Builder.closeFrame, Tree.Builder.finish, collection]
  refine ⟨n + 1, ?_⟩
  rw [List.foldlM_append, hn, hframe]
  rcases hlast with rfl | rfl
  · exact congrArg (fun c => some { c with position := c.position + 1 }) hclose
  · exact congrArg (fun c => some { c with position := c.position + 1 }) hclose

/-- A sequence is built of what its events build. -/
theorem builds_sequence {es : List Event} {ts : List Tree} (h : Builds es ts) :
    Builds (.sequenceStart {} :: es ++ [.sequenceEnd]) [.sequence none ts] := by
  intro b
  obtain ⟨n, hn⟩ := foldlM_frame h { b with position := b.position + 1 } false (.inl rfl)
  refine ⟨n, ?_⟩
  rw [Tree.Builder.place_position] at hn
  exact hn

/-- A mapping is built of the keys and values that its events build. -/
theorem builds_mapping {es : List Event} {entries : List (Tree × Tree)}
    (h : Builds es (flattened entries)) :
    Builds (.mappingStart {} :: es ++ [.mappingEnd]) [.mapping none entries] := by
  intro b
  obtain ⟨n, hn⟩ := foldlM_frame h { b with position := b.position + 1 } true (.inr rfl)
  refine ⟨n, ?_⟩
  rw [Tree.Builder.place_position, collection, if_pos rfl, pairs_flattened] at hn
  exact hn

mutual

/-- The events of a value build its tree. -/
theorem builds_nodeEvents : ∀ v : Value, Builds (nodeEvents v) [nodeTree v]
  | .null => builds_scalar _ _
  | .bool true => builds_scalar _ _
  | .bool false => builds_scalar _ _
  | .number _ => builds_scalar _ _
  | .text _ => builds_scalar _ _
  | .sequence vs => builds_sequence (builds_itemEvents vs)
  | .map es => builds_mapping (builds_entryEvents es)
termination_by structural v => v

theorem builds_itemEvents : ∀ vs : List Value, Builds (itemEvents vs) (itemTrees vs)
  | [] => builds_nil
  | v :: vs => (builds_nodeEvents v).append (builds_itemEvents vs)
termination_by structural vs => vs

theorem builds_entryEvents : ∀ es : List (String × Value),
    Builds (entryEvents es) (flattened (entryTrees es))
  | [] => builds_nil
  | (_, v) :: es =>
    (builds_scalar _ _).append ((builds_nodeEvents v).append (builds_entryEvents es))
termination_by structural es => es

end

/-- The events of a document leave its tree as the root. -/
theorem foldlM_nodeEvents (v : Value) : ∃ b, (nodeEvents v).foldlM Tree.Builder.take? {} = some b ∧
    b.root = some (nodeTree v) := by
  obtain ⟨n, hn⟩ := builds_nodeEvents v {}
  exact ⟨_, hn, rfl⟩

end ManifestBundle.Yaml
