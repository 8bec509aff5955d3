import ManifestBundle.Document.Stream
import ManifestBundle.Proofs.Equality
import ManifestBundle.Proofs.Yaml.Data

/-!
# What a conversion keeps

The data tree that a node becomes, rule by rule (`Node.Becomes`): scalars and sequences
are taken over, tags dropped, and a mapping becomes the map to which its entries merge
under the spellings of their keys. This is how nodes are converted, and nothing is lost
if and only if no two keys of a mapping are spelled alike (`ofNode?_iff_becomes`).

Keys that the reader tells apart may be spelled alike, as the number `1` and the text `"1"`
are. Of two such entries the first keeps its place, but with the value of the second
(`ofNode?_keys_spelled_alike`).
-/

namespace ManifestBundle

namespace Yaml.Node

/-- The data tree that a node becomes. `merge` says which entries a map has that is made of
    given ones; a map holds each key once. -/
inductive Becomes (merge : List (String × Value) → List (String × Value) → Prop) :
    Node → Value → Prop
  | null : Becomes merge .null .null
  | bool (b : Bool) : Becomes merge (.bool b) (.bool b)
  | integer (i : Int) : Becomes merge (.integer i) (.number (.ofInt i))
  | float (x : Binary64) : Becomes merge (.float x) (.number (.float x))
  | text (s : String) : Becomes merge (.text s) (.text s)
  | sequence {items : List Node} {vs : List Value}
      (hitems : List.Forall₂ (Becomes merge) items vs) :
      Becomes merge (.sequence items) (.sequence vs)
  | mapping {entries : List (Node × Node)} {es merged : List (String × Value)}
      (hkeys : entries.map (·.1.keyText?) = es.map (some ·.1))
      (hvalues : List.Forall₂ (Becomes merge) (entries.map (·.2)) (es.map (·.2)))
      (hmerge : merge es merged) (hnodup : (merged.map Prod.fst).Nodup) :
      Becomes merge (.mapping entries) (.map merged)
  | tagged (tag : String) {n : Node} {v : Value} (hcontent : Becomes merge n v) :
      Becomes merge (.tagged tag n) v

/-- No two keys of a mapping in the node, at any depth, are spelled alike. -/
inductive HasDistinctKeys : Node → Prop
  | null : HasDistinctKeys .null
  | bool (b : Bool) : HasDistinctKeys (.bool b)
  | integer (i : Int) : HasDistinctKeys (.integer i)
  | float (x : Binary64) : HasDistinctKeys (.float x)
  | text (s : String) : HasDistinctKeys (.text s)
  | sequence {items : List Node} (hitems : ∀ n ∈ items, HasDistinctKeys n) :
      HasDistinctKeys (.sequence items)
  | mapping {entries : List (Node × Node)} (hkeys : (entries.map (·.1.keyText?)).Nodup)
      (hvalues : ∀ n ∈ entries.map (·.2), HasDistinctKeys n) : HasDistinctKeys (.mapping entries)
  | tagged (tag : String) {n : Node} (hcontent : HasDistinctKeys n) :
      HasDistinctKeys (.tagged tag n)

/-! ## Induction on the parts of a node -/

theorem sizeOf_value_lt {entries : List (Node × Node)} {e : Node × Node} (h : e ∈ entries) :
    sizeOf e.2 < sizeOf entries := by
  have hentry : sizeOf (e.1, e.2) < sizeOf entries := List.sizeOf_lt_of_mem h
  rw [Prod.mk.sizeOf_spec] at hentry
  exact Nat.lt_of_le_of_lt (Nat.le_add_left _ _) hentry

/-- What holds of a node if it holds of the items and values in it, holds of every node. -/
@[elab_as_elim]
theorem inductionOn {motive : Node → Prop} (null : motive .null) (bool : ∀ b, motive (.bool b))
    (integer : ∀ i, motive (.integer i)) (float : ∀ x, motive (.float x))
    (text : ∀ s, motive (.text s))
    (sequence : ∀ items, (∀ n ∈ items, motive n) → motive (.sequence items))
    (mapping : ∀ entries, (∀ n ∈ entries.map (·.2), motive n) → motive (.mapping entries))
    (tagged : ∀ tag n, motive n → motive (.tagged tag n)) : ∀ n, motive n
  | .null => null
  | .bool b => bool b
  | .integer i => integer i
  | .float x => float x
  | .text s => text s
  | .sequence items => sequence items fun n _ =>
    inductionOn null bool integer float text sequence mapping tagged n
  | .mapping entries => mapping entries <| List.forall_mem_map.2 fun e he =>
    have := sizeOf_value_lt he
    inductionOn null bool integer float text sequence mapping tagged e.2
  | .tagged tag n => tagged tag n
    (inductionOn null bool integer float text sequence mapping tagged n)

variable {merge : List (String × Value) → List (String × Value) → Prop}

/-- A sequence becomes one of what its items become. -/
theorem becomes_sequence_iff {items : List Node} {v : Value} :
    Becomes merge (.sequence items) v ↔
      ∃ vs, List.Forall₂ (Becomes merge) items vs ∧ .sequence vs = v := by
  constructor
  · rintro ⟨⟩
    exact ⟨_, ‹_›, rfl⟩
  · rintro ⟨vs, hitems, rfl⟩
    exact .sequence hitems

/-- A mapping becomes a map that its entries merge into. -/
theorem becomes_mapping_iff {entries : List (Node × Node)} {v : Value} :
    Becomes merge (.mapping entries) v ↔
      ∃ es, (entries.map (·.1.keyText?) = es.map (some ·.1) ∧
        List.Forall₂ (Becomes merge) (entries.map (·.2)) (es.map (·.2))) ∧
          ∃ merged, (merge es merged ∧ (merged.map Prod.fst).Nodup) ∧ .map merged = v := by
  constructor
  · rintro ⟨⟩
    exact ⟨_, ⟨‹_›, ‹_›⟩, _, ⟨‹_›, ‹_›⟩, rfl⟩
  · rintro ⟨es, ⟨hkeys, hvalues⟩, merged, ⟨hmerge, hnodup⟩, rfl⟩
    exact .mapping hkeys hvalues hmerge hnodup

theorem becomes_tagged_iff {tag : String} {n : Node} {v : Value} :
    Becomes merge (.tagged tag n) v ↔ Becomes merge n v := by
  constructor
  · rintro ⟨⟩
    assumption
  · exact .tagged tag

theorem hasDistinctKeys_sequence_iff {items : List Node} :
    HasDistinctKeys (.sequence items) ↔ ∀ n ∈ items, HasDistinctKeys n :=
  ⟨fun | .sequence hitems => hitems, .sequence⟩

/-- A mapping has distinct keys if its own are and those in its values are. -/
theorem hasDistinctKeys_mapping_iff {entries : List (Node × Node)} :
    HasDistinctKeys (.mapping entries) ↔
      (entries.map (·.1.keyText?)).Nodup ∧ ∀ n ∈ entries.map (·.2), HasDistinctKeys n :=
  ⟨fun | .mapping hkeys hvalues => ⟨hkeys, hvalues⟩, fun ⟨hkeys, hvalues⟩ => .mapping hkeys hvalues⟩

theorem hasDistinctKeys_tagged_iff {tag : String} {n : Node} :
    HasDistinctKeys (.tagged tag n) ↔ HasDistinctKeys n :=
  ⟨fun | .tagged _ hcontent => hcontent, .tagged tag⟩

end Yaml.Node

namespace Value

open Yaml

/-- Nodes are converted by the rules. -/
theorem ofNode?_eq_some_iff {n : Node} {v : Value} : ofNode? n = some v ↔ n.Becomes Merges v := by
  induction n using Node.inductionOn generalizing v with
  | null | bool b | integer i | float x | text s =>
    rw [ofNode?, Option.some_inj]
    exact ⟨fun h => by cases h; constructor, fun h => by cases h; rfl⟩
  | sequence items ih =>
    rw [ofNode?, Option.map_eq_some_iff, Node.becomes_sequence_iff]
    simp only [ofItems?_eq_some_iff, forall₂_congr_of_mem fun n hn v => ih n hn]
  | mapping entries ih =>
    rw [ofNode?, Option.map_eq_some_iff, Node.becomes_mapping_iff]
    simp only [ofMapping?_eq_some_iff, ofEntries_eq_iff, and_iff_left_of_imp Merges.nodup,
      forall₂_congr_of_mem fun n hn v => ih n hn]
  | tagged tag n ih => rw [ofNode?, ih, Node.becomes_tagged_iff]

/-- Keys are spelled alike exactly if they become one key. -/
theorem nodup_keyText?_iff {entries : List (Node × Node)} {es : List (String × Value)}
    (h : entries.map (·.1.keyText?) = es.map (some ·.1)) :
    (entries.map (·.1.keyText?)).Nodup ↔ (es.map Prod.fst).Nodup := by
  rw [h, ← List.nodup_map_iff (Option.some_injective String), List.map_map]
  rfl

/-- No entry is merged with another if and only if no two keys of a mapping are spelled
    alike. -/
theorem becomes_eq_iff {n : Node} {v : Value} :
    n.Becomes (· = ·) v ↔ n.HasDistinctKeys ∧ n.Becomes Merges v := by
  induction n using Node.inductionOn generalizing v with
  | null | bool b | integer i | float x | text s =>
    exact ⟨fun h => by cases h; exact ⟨by constructor, by constructor⟩,
      fun h => by cases h.2; constructor⟩
  | sequence items ih =>
    rw [Node.becomes_sequence_iff, Node.becomes_sequence_iff, Node.hasDistinctKeys_sequence_iff]
    simp only [forall₂_congr_of_mem fun n hn v => ih n hn, List.forall₂_and_left, and_assoc,
      exists_and_left]
  | mapping entries ih =>
    rw [Node.becomes_mapping_iff, Node.becomes_mapping_iff, Node.hasDistinctKeys_mapping_iff]
    simp only [forall₂_congr_of_mem fun n hn v => ih n hn, List.forall₂_and_left]
    constructor
    · rintro ⟨es, ⟨hkeys, hdistinct, hvalues⟩, merged, ⟨rfl, hnodup⟩, rfl⟩
      refine ⟨⟨(nodup_keyText?_iff hkeys).2 hnodup, hdistinct⟩, es, ⟨hkeys, hvalues⟩, ?_⟩
      exact ⟨es, ⟨merges_self hnodup, hnodup⟩, rfl⟩
    · rintro ⟨⟨hentries, hdistinct⟩, es, ⟨hkeys, hvalues⟩, merged, ⟨hmerges, hnodup⟩, rfl⟩
      have hsame : Merges es es := merges_self ((nodup_keyText?_iff hkeys).1 hentries)
      exact ⟨es, ⟨hkeys, hdistinct, hvalues⟩, merged, ⟨hsame.unique hmerges, hnodup⟩, rfl⟩
  | tagged tag n ih =>
    rw [Node.becomes_tagged_iff, Node.becomes_tagged_iff, Node.hasDistinctKeys_tagged_iff, ih]

/-- A node is converted by the rules, and the map that a mapping becomes has an entry for each
    of its entries, wherever it stands, if and only if no two keys of a mapping are spelled
    alike. -/
theorem ofNode?_iff_becomes (n : Node) (v : Value) :
    (ofNode? n = some v ↔ n.Becomes Merges v) ∧
      (n.Becomes (· = ·) v ↔ n.HasDistinctKeys ∧ ofNode? n = some v) :=
  ⟨ofNode?_eq_some_iff, by rw [becomes_eq_iff, ofNode?_eq_some_iff]⟩

/-- The reader tells the keys of this mapping apart, but they are spelled alike: the map has one
    entry for the two. -/
theorem ofNode?_keys_spelled_alike :
    nodes "1: a\n\"1\": b\n" = [some (.mapping [(.integer 1, .text "a"), (.text "1", .text "b")])] ∧
      parseStream "1: a\n\"1\": b\n" = .ok [.map [("1", .text "b")]] ∧
      ¬ ∀ text n v, some n ∈ nodes text → ofNode? n = some v → n.Becomes (· = ·) v := by
  have hnodes : nodes "1: a\n\"1\": b\n" =
      [some (.mapping [(.integer 1, .text "a"), (.text "1", .text "b")])] := by decide +kernel
  have hparse : parseStream "1: a\n\"1\": b\n" = .ok [.map [("1", .text "b")]] := by decide +kernel
  refine ⟨hnodes, hparse, fun hkeeps => ?_⟩
  have hnode : ofNode? (.mapping [(.integer 1, .text "a"), (.text "1", .text "b")]) =
      some (.map [("1", .text "b")]) := by decide +kernel
  have hbecomes := hkeeps _ _ _ (hnodes ▸ List.mem_singleton_self _) hnode
  rw [becomes_eq_iff, Node.hasDistinctKeys_mapping_iff] at hbecomes
  exact absurd hbecomes.1.1 (by decide)

end Value

end ManifestBundle
