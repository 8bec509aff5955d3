import ManifestBundle.Document.Stream
import ManifestBundle.Proofs.Yaml.Conversion

/-!
# Tags and data trees

Two nodes differ only in tags if they are the same node once all tags are removed, those on
keys as well (`Node.untagged`). A key is spelled without its tags (`keyText?_untagged`), and so
a node has the data tree of the node without tags (`ofNode?_untagged`).

A key that is a collection has no spelling, so a mapping with such a key has no data tree. Nor
has a node that holds one without a data tree, at any depth (`ofNode?_eq_none_of_holds`), and
nothing else leaves a node without one (`ofNode?_eq_none_iff`).

A document is empty or not whatever its tags, so streams whose documents differ only in tags
are read alike (`parseStream_eq_of_untagged`).
-/

namespace ManifestBundle

namespace Yaml.Node

/-! ## Removing tags -/

mutual

/-- The node without the tags on it and in it. -/
def untagged : Node → Node
  | .sequence items => .sequence (untaggedItems items)
  | .mapping entries => .mapping (untaggedEntries entries)
  | .tagged _ n => untagged n
  | n => n
termination_by structural n => n

/-- The items of a sequence without tags. -/
def untaggedItems : List Node → List Node
  | [] => []
  | n :: ns => untagged n :: untaggedItems ns
termination_by structural ns => ns

/-- The entries of a mapping without tags on keys and values. -/
def untaggedEntries : List (Node × Node) → List (Node × Node)
  | [] => []
  | (k, v) :: entries => (untagged k, untagged v) :: untaggedEntries entries
termination_by structural entries => entries

end

theorem untaggedItems_eq (items : List Node) : untaggedItems items = items.map untagged := by
  induction items with
  | nil => rfl
  | cons n items ih => rw [untaggedItems, ih, List.map_cons]

theorem untaggedEntries_eq (entries : List (Node × Node)) :
    untaggedEntries entries = entries.map fun e => (e.1.untagged, e.2.untagged) := by
  induction entries with
  | nil => rfl
  | cons e entries ih => rw [untaggedEntries, ih, List.map_cons]

theorem untagged_sequence (items : List Node) :
    (Node.sequence items).untagged = .sequence (items.map untagged) := by
  rw [untagged, untaggedItems_eq]

theorem untagged_mapping (entries : List (Node × Node)) :
    (Node.mapping entries).untagged =
      .mapping (entries.map fun e => (e.1.untagged, e.2.untagged)) := by
  rw [untagged, untaggedEntries_eq]

/-- A tag does not change how a key is spelled. -/
theorem keyText?_untagged (n : Node) : n.untagged.keyText? = n.keyText? := by
  induction n using inductionOn with
  | tagged tag n ih => exact ih
  | _ => rfl

theorem isNull_untagged (n : Node) : n.untagged.isNull = n.isNull := by
  induction n using inductionOn with
  | tagged tag n ih => exact ih
  | _ => rfl

/-! ## Nodes in a node -/

/-- The second node is the first one or stands in it, at any depth: as an item, as a key or a
    value, with tags or without. -/
inductive Holds : Node → Node → Prop
  | self (n : Node) : Holds n n
  | item {items : List Node} {n m : Node} (hn : n ∈ items) (h : Holds n m) :
      Holds (.sequence items) m
  | key {entries : List (Node × Node)} {e : Node × Node} {m : Node} (he : e ∈ entries)
      (h : Holds e.1 m) : Holds (.mapping entries) m
  | value {entries : List (Node × Node)} {e : Node × Node} {m : Node} (he : e ∈ entries)
      (h : Holds e.2 m) : Holds (.mapping entries) m
  | content (tag : String) {n m : Node} (h : Holds n m) : Holds (.tagged tag n) m

/-- The node is a sequence or a mapping once its tags are removed. -/
def IsCollection (n : Node) : Prop :=
  (∃ items, n.untagged = .sequence items) ∨ ∃ entries, n.untagged = .mapping entries

/-- A mapping in the node, at any depth, has a collection as a key. -/
def HasCollectionKey (n : Node) : Prop :=
  ∃ entries, n.Holds (.mapping entries) ∧ ∃ e ∈ entries, e.1.IsCollection

/-- A key has no spelling if and only if it is a collection. -/
theorem keyText?_eq_none_iff {n : Node} : n.keyText? = none ↔ n.IsCollection := by
  induction n using inductionOn with
  | sequence items _ => exact ⟨fun _ => .inl ⟨_, rfl⟩, fun _ => rfl⟩
  | mapping entries _ => exact ⟨fun _ => .inr ⟨_, rfl⟩, fun _ => rfl⟩
  | tagged tag n ih => exact ih
  | _ =>
    refine ⟨fun h => ?_, ?_⟩
    · cases h
    · rintro (⟨items, h⟩ | ⟨entries, h⟩) <;> cases h

end Yaml.Node

namespace Value

open Yaml

variable {n m : Node} {items : List Node} {entries : List (Node × Node)}

/-! ## The same data tree -/

theorem ofItems?_untagged (h : ∀ n ∈ items, ofNode? n.untagged = ofNode? n) :
    ofItems? (items.map Node.untagged) = ofItems? items := by
  ext vs
  rw [ofItems?_eq_some_iff, ofItems?_eq_some_iff, List.forall₂_map_left_iff]
  exact forall₂_congr_of_mem fun n hn v => by rw [h n hn]

/-- Tags in a mapping do not count if those in its values do not. -/
theorem ofMapping?_untagged (h : ∀ n ∈ entries.map (·.2), ofNode? n.untagged = ofNode? n) :
    ofMapping? (entries.map fun e => (e.1.untagged, e.2.untagged)) = ofMapping? entries := by
  have hkeys : (entries.map fun e => (e.1.untagged, e.2.untagged)).map (·.1.keyText?) =
      entries.map (·.1.keyText?) := by
    simp only [List.map_map, Function.comp_def, Node.keyText?_untagged]
  have hvalues : (entries.map fun e => (e.1.untagged, e.2.untagged)).map (·.2) =
      (entries.map (·.2)).map Node.untagged := by
    simp only [List.map_map, Function.comp_def]
  ext es
  rw [ofMapping?_eq_some_iff, ofMapping?_eq_some_iff, hkeys, hvalues, List.forall₂_map_left_iff]
  exact and_congr_right' (forall₂_congr_of_mem fun n hn v => by rw [h n hn])

/-- A node has the data tree of the node without tags. -/
theorem ofNode?_untagged (n : Node) : ofNode? n.untagged = ofNode? n := by
  induction n using Node.inductionOn with
  | sequence items ih => rw [Node.untagged_sequence, ofNode?, ofItems?_untagged ih, ofNode?]
  | mapping entries ih => rw [Node.untagged_mapping, ofNode?, ofMapping?_untagged ih, ofNode?]
  | tagged tag n ih => exact ih
  | _ => rfl

/-! ## No data tree -/

/-- Items have no trees if one of them has none. -/
theorem ofItems?_eq_none_iff :
    ofItems? items = none ↔ ∃ n ∈ items, ofNode? n = none := by
  induction items with
  | nil => simp [ofItems?]
  | cons n items ih =>
    rw [ofItems?, List.exists_mem_cons_iff, ← ih]
    cases ofNode? n with
    | none => simp
    | some v => cases ofItems? items <;> simp

/-- Entries have no trees if a key is not spelled or a value has no tree. -/
theorem ofMapping?_eq_none_iff :
    ofMapping? entries = none ↔ ∃ e ∈ entries, e.1.keyText? = none ∨ ofNode? e.2 = none := by
  induction entries with
  | nil => simp [ofMapping?]
  | cons e entries ih =>
    rw [ofMapping?, List.exists_mem_cons_iff, ← ih]
    cases e.1.keyText? with
    | none => simp
    | some key =>
      cases ofNode? e.2 with
      | none => simp
      | some v => cases ofMapping? entries <;> simp

theorem ofNode?_sequence_eq_none_iff :
    ofNode? (.sequence items) = none ↔ ∃ n ∈ items, ofNode? n = none := by
  rw [ofNode?, Option.map_eq_none_iff, ofItems?_eq_none_iff]

theorem ofNode?_mapping_eq_none_iff :
    ofNode? (.mapping entries) = none ↔ ∃ e ∈ entries, e.1.IsCollection ∨ ofNode? e.2 = none := by
  simp only [ofNode?, Option.map_eq_none_iff, ofMapping?_eq_none_iff, Node.keyText?_eq_none_iff]

/-- Only a collection can have no tree. -/
theorem isCollection_of_ofNode?_eq_none (h : ofNode? n = none) : n.IsCollection := by
  induction n using Node.inductionOn with
  | sequence items _ => exact .inl ⟨_, rfl⟩
  | mapping entries _ => exact .inr ⟨_, rfl⟩
  | tagged tag n ih => exact ih h
  | _ => cases h

/-- A node that holds one without a data tree has none itself. -/
theorem ofNode?_eq_none_of_holds (h : n.Holds m) (hm : ofNode? m = none) : ofNode? n = none := by
  induction h with
  | self n => exact hm
  | item hn _ ih => exact ofNode?_sequence_eq_none_iff.2 ⟨_, hn, ih hm⟩
  | key he _ ih =>
    -- What is held by a key makes the key a collection.
    have hkey := isCollection_of_ofNode?_eq_none (ih hm)
    exact ofNode?_mapping_eq_none_iff.2 ⟨_, he, .inl hkey⟩
  | value he _ ih => exact ofNode?_mapping_eq_none_iff.2 ⟨_, he, .inr (ih hm)⟩
  | content tag _ ih => exact ih hm

/-- Without a tree there is a collection as a key, by induction on the parts of the node. -/
theorem hasCollectionKey_of_ofNode?_eq_none (h : ofNode? n = none) : n.HasCollectionKey := by
  induction n using Node.inductionOn with
  | sequence items ih =>
    obtain ⟨n, hn, hnone⟩ := ofNode?_sequence_eq_none_iff.1 h
    obtain ⟨entries, hholds, hkey⟩ := ih n hn hnone
    exact ⟨entries, .item hn hholds, hkey⟩
  | mapping entries ih =>
    obtain ⟨e, he, hkey | hnone⟩ := ofNode?_mapping_eq_none_iff.1 h
    · exact ⟨entries, .self _, e, he, hkey⟩
    · obtain ⟨inner, hholds, hkey⟩ := ih e.2 (List.mem_map_of_mem he) hnone
      exact ⟨inner, .value he hholds, hkey⟩
  | tagged tag n ih =>
    obtain ⟨entries, hholds, hkey⟩ := ih h
    exact ⟨entries, .content tag hholds, hkey⟩
  | _ => cases h

/-- A node has no data tree if and only if a mapping in it has a collection as a key. -/
theorem ofNode?_eq_none_iff : ofNode? n = none ↔ n.HasCollectionKey := by
  refine ⟨hasCollectionKey_of_ofNode?_eq_none, ?_⟩
  rintro ⟨entries, hholds, e, he, hkey⟩
  exact ofNode?_eq_none_of_holds hholds (ofNode?_mapping_eq_none_iff.2 ⟨e, he, .inl hkey⟩)

example : ofNode? (.sequence [.tagged "map" (.mapping
    [(.tagged "pair" (.sequence [.integer 1, .integer 2]), .text "a")])]) = none :=
  rfl

/-- Nothing but a collection as a key, at any depth, leaves a node without a data tree, and nodes
    that differ only in tags have the same data tree or none. -/
theorem ofNode?_ignores_tags (n : Node) :
    (ofNode? n = none ↔ n.HasCollectionKey) ∧
      ∀ m : Node, m.untagged = n.untagged → ofNode? m = ofNode? n := by
  refine ⟨ofNode?_eq_none_iff, fun m h => ?_⟩
  rw [← ofNode?_untagged m, h, ofNode?_untagged]

/-- A port and its hosts, with a tag on every part. -/
def taggedHosts : Node :=
  .tagged "service" (.mapping
    [(.tagged "port" (.integer 80), .tagged "hosts" (.sequence [.tagged "host" (.text "a")]))])

/-- The same without tags. -/
def plainHosts : Node :=
  .mapping [(.integer 80, .sequence [.text "a"])]

/-- Both are read, and they have the same data tree. -/
theorem ofNode?_ignores_tags_of_hosts :
    nodes "!service {!port 80: !hosts [!host a]}\n" = [some taggedHosts] ∧
      nodes "{80: [a]}\n" = [some plainHosts] ∧ taggedHosts.untagged = plainHosts.untagged ∧
        ofNode? taggedHosts = ofNode? plainHosts ∧
          ofNode? plainHosts = some (.map [("80", .sequence [.text "a"])]) :=
  ⟨by decide +kernel, by decide +kernel, rfl, (ofNode?_ignores_tags plainHosts).2 taggedHosts rfl,
    by decide +kernel⟩

/-! ## Streams -/

/-- The documents of a stream do not depend on the tags in it. -/
theorem ofNodes_untagged (position : Nat) (ns : List (Option Node)) :
    ofNodes position (ns.map (Option.map Node.untagged)) = ofNodes position ns := by
  induction ns generalizing position with
  | nil => rfl
  | cons n ns ih =>
    cases n with
    | none => rfl
    | some n =>
      rw [List.map_cons, Option.map_some, ofNodes, ofNodes, Node.isNull_untagged, ofNode?_untagged,
        ih]

/-- Streams whose documents differ only in tags are read alike. -/
theorem parseStream_eq_of_untagged {s t : String}
    (h : (nodes s).map (Option.map Node.untagged) = (nodes t).map (Option.map Node.untagged)) :
    parseStream s = parseStream t := by
  rw [parseStream, ← ofNodes_untagged, h, ofNodes_untagged, parseStream]

end Value

end ManifestBundle
