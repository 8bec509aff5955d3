import ManifestBundle.Bundle
import ManifestBundle.Proofs.KeyValues.Lookup
import Mathlib.Data.List.Basic

/-!
# Exactly or as a subset

A selector that asks for labels exactly selects less than one that asks for them as a subset: of
the documents that have the labels, those that have no others (`admitsAll_exact_iff`). Labels that
are not asked for at all do not count in either way, and annotations are asked for on their own
(`selects_exact_iff`). So a bundle filtered exactly is a part of the one filtered by subset, and
the same where nothing is asked for (`selects_exact_refines_subset`).
-/

namespace ManifestBundle

namespace Selector

/-- The selector with labels and annotations asked for in another way. -/
def withMode (s : Selector) (labelMatch : LabelMatch) : Selector :=
  { s with labelMatch }

variable {s : Selector} {d : Document}

/-- What is asked for exactly is asked for as a subset, with no other key. -/
theorem admitsAll_exact_iff {wanted actual : KeyValues} :
    admitsAll .exact wanted actual ↔
      admitsAll .subset wanted actual ∧ (wanted.isEmpty ∨ actual.keys ⊆ wanted.keys) := by
  rw [admitsAll, admitsAll]
  cases wanted.isEmpty with
  | true => simp
  | false =>
    simp only [Bool.false_or, Bool.false_eq_true, false_or, decide_eq_true_iff]
    exact KeyValues.eq_iff_isSubsetOf

theorem selects_exact_iff :
    (s.withMode .exact).selects d ↔
      (s.withMode .subset).selects d ∧
        (s.labels.isEmpty ∨ d.labels.keys ⊆ s.labels.keys) ∧
        (s.annotations.isEmpty ∨ d.annotations.keys ⊆ s.annotations.keys) := by
  simp only [selects, withMode, Bool.and_eq_true, admitsAll_exact_iff]
  constructor
  · rintro ⟨⟨hrest, hlabels, hlabels'⟩, hannotations, hannotations'⟩
    exact ⟨⟨⟨hrest, hlabels⟩, hannotations⟩, hlabels', hannotations'⟩
  · rintro ⟨⟨⟨hrest, hlabels⟩, hannotations⟩, hlabels', hannotations'⟩
    exact ⟨⟨hrest, hlabels, hlabels'⟩, hannotations, hannotations'⟩

/-- What is selected exactly is selected by subset. The converse holds of the documents that have
    no label besides those that are asked for, if any are, and no annotation likewise. So filtering
    exactly gives a part of what filtering by subset does, in the same order, and all of it if
    neither labels nor annotations are asked for. -/
theorem selects_exact_refines_subset (s : Selector) (d : Document) (b : Bundle) :
    ((s.withMode .exact).selects d → (s.withMode .subset).selects d) ∧
    ((s.withMode .subset).selects d →
      ((s.withMode .exact).selects d ↔
        (s.labels.isEmpty ∨ d.labels.keys ⊆ s.labels.keys) ∧
        (s.annotations.isEmpty ∨ d.annotations.keys ⊆ s.annotations.keys))) ∧
    (b.filter (s.withMode .exact)).Sublist (b.filter (s.withMode .subset)) ∧
    (s.labels.isEmpty → s.annotations.isEmpty →
      b.filter (s.withMode .exact) = b.filter (s.withMode .subset)) := by
  refine ⟨fun h => (selects_exact_iff.1 h).1, fun h => ?_, ?_, fun hlabels hannotations => ?_⟩
  · rw [selects_exact_iff, and_iff_right h]
  · exact List.monotone_filter_right b.documents fun d h => (selects_exact_iff.1 h).1
  · refine List.filter_congr fun d _ => ?_
    rw [Bool.eq_iff_iff, selects_exact_iff, and_iff_left ⟨.inl hlabels, .inl hannotations⟩]

/-- A service with labels and an owner in its annotations. -/
def ownedService (labels : List (String × String)) : Document where
  group := ""
  version := "v1"
  kind := "Service"
  name := "web"
  labels := .ofEntries labels
  annotations := .ofEntries [("owner", "shop")]

/-- A document with one more label is selected by subset only, and annotations that are not asked
    for do not keep one from being selected exactly. -/
theorem selects_exact_of_surplus :
    let s : Selector := { labels := .ofEntries [("app", "web")] }
    let plain := ownedService [("app", "web")]
    let tiered := ownedService [("app", "web"), ("tier", "front")]
    (s.withMode .subset).selects plain ∧ (s.withMode .exact).selects plain ∧
      (s.withMode .subset).selects tiered ∧ ¬ (s.withMode .exact).selects tiered ∧
      ((⟨[tiered, plain]⟩ : Bundle).filter (s.withMode .exact)).Sublist
        ((⟨[tiered, plain]⟩ : Bundle).filter (s.withMode .subset)) := by
  intro s plain tiered
  obtain ⟨-, hplain, -, -⟩ := selects_exact_refines_subset s plain ⟨[tiered, plain]⟩
  obtain ⟨-, htiered, hsublist, -⟩ := selects_exact_refines_subset s tiered ⟨[tiered, plain]⟩
  have hsubset : (s.withMode .subset).selects plain := by decide +kernel
  have hsubset' : (s.withMode .subset).selects tiered := by decide +kernel
  have hkeys : plain.labels.keys ⊆ s.labels.keys := by decide +kernel
  have hkeys' : ¬ tiered.labels.keys ⊆ s.labels.keys := by decide +kernel
  have hlabels : ¬ s.labels.isEmpty := by decide +kernel
  refine ⟨hsubset, (hplain hsubset).2 ⟨.inr hkeys, .inl rfl⟩, hsubset', fun h => ?_, hsublist⟩
  exact hkeys' (((htiered hsubset').1 h).1.resolve_left hlabels)

end Selector

end ManifestBundle
