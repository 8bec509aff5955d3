import ManifestBundle.Bundle

/-!
# Bundles made from bundles

A bundle is made by collecting documents, by adding one at the end, by merging two bundles
or by filtering one. Written down as a tree, such a `Derivation` has documents at its
leaves, and over each leaf stand the filters that the document has to pass on its way up.

The bundle that is derived holds the documents of the leaves, from left to right, that pass
all filters over them, and nothing else (`documents_bundle`); so this is what a selector
chooses from (`filter_bundle`).
-/

namespace ManifestBundle

/-- How a bundle is made. A bundle that is used twice has its derivation in two places. -/
inductive Derivation where
  | collect (documents : List Document)
  | append (e : Derivation) (document : Document)
  | merge (e f : Derivation)
  | filtered (e : Derivation) (s : Selector)

namespace Derivation

/-- The bundle that is derived. -/
def bundle : Derivation → Bundle
  | collect ds => ⟨ds⟩
  | append e d => e.bundle.append d
  | merge e f => e.bundle.merge f.bundle
  | filtered e s => e.bundle.filtered s

/-- A document that has been put into a bundle, under the filters over it. -/
structure Leaf where
  document : Document
  filters : List Selector

/-- The document passes all filters over it. -/
def Leaf.passes (l : Leaf) : Bool :=
  l.filters.all (·.selects l.document)

/-- The leaves from left to right, of a derivation that stands under filters. -/
def leavesUnder (filters : List Selector) : Derivation → List Leaf
  | collect ds => ds.map (⟨·, filters⟩)
  | append e d => e.leavesUnder filters ++ [⟨d, filters⟩]
  | merge e f => e.leavesUnder filters ++ f.leavesUnder filters
  | filtered e s => e.leavesUnder (s :: filters)

/-- The leaves from left to right. -/
def leaves (e : Derivation) : List Leaf :=
  e.leavesUnder []

/-- The documents of leaves that pass the filters over them. -/
def passed (ls : List Leaf) : List Document :=
  (ls.filter Leaf.passes).map Leaf.document

@[simp] theorem passed_append (ls ms : List Leaf) : passed (ls ++ ms) = passed ls ++ passed ms := by
  simp [passed]

/-- Documents under the same filters pass if all of these select them. -/
theorem passed_map (filters : List Selector) (ds : List Document) :
    passed (ds.map (⟨·, filters⟩)) = ds.filter fun d => filters.all (·.selects d) := by
  rw [passed, List.filter_map, List.map_map]
  exact List.map_id _

/-- Of a bundle whose derivation stands under filters, the documents that these select are
    those that come through from the leaves. -/
theorem passed_leavesUnder (e : Derivation) (filters : List Selector) :
    passed (e.leavesUnder filters) =
      e.bundle.documents.filter fun d => filters.all (·.selects d) := by
  induction e generalizing filters with
  | collect ds => exact passed_map filters ds
  | append e d ih =>
    have hd : passed [⟨d, filters⟩] = [d].filter fun d => filters.all (·.selects d) :=
      passed_map filters [d]
    rw [leavesUnder, passed_append, ih, hd, bundle, Bundle.append, List.filter_append]
  | merge e f ihe ihf =>
    rw [leavesUnder, passed_append, ihe, ihf, bundle, Bundle.merge, List.filter_append]
  | filtered e s ih =>
    -- A document under one more filter has to pass this one first.
    rw [leavesUnder, ih, bundle, Bundle.filtered, List.filter_filter]
    refine List.filter_congr fun d _ => ?_
    rw [List.all_cons, Bool.and_comm]

/-- A bundle holds the documents that come through from the leaves. -/
theorem documents_bundle (e : Derivation) : e.bundle.documents = passed e.leaves := by
  rw [leaves, passed_leavesUnder]
  exact (List.filter_eq_self.2 fun _ _ => rfl).symm

/-- A selector chooses, from a derived bundle, the documents that it selects among those
    that pass all filters over them, in the order of the leaves; the bundle has as many
    documents as pass; and filtering it gives the bundle of the same choice, whatever
    position the selector carries. -/
theorem filter_bundle (e : Derivation) (s : Selector) :
    e.bundle.filter s =
        (e.leaves.filter fun l => s.selects l.document && l.passes).map Leaf.document ∧
      e.bundle.size = e.leaves.countP Leaf.passes ∧
      ∀ index, (e.bundle.filtered { s with index }).documents = e.bundle.filter s := by
  refine ⟨?_, ?_, fun index => rfl⟩
  · rw [Bundle.filter, documents_bundle, passed, List.filter_map, List.filter_filter]
    rfl
  · rw [Bundle.size, documents_bundle, passed, List.length_map, List.countP_eq_length_filter]

end Derivation

end ManifestBundle
