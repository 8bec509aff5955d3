import ManifestBundle.Bundle
import ManifestBundle.Proofs.Selector.Criteria

/-!
# Filtering twice

Two selectors agree if they do not want different values in one aspect of a document
(`Selector.Agrees`); two that select some document both do (`agrees_of_selects`). Of two by subset
that agree there is a union, which wants what either of them wants (`wanted?_union_iff`), and so
selects what both of them do (`selects_union_iff`).

A bundle that is filtered by one and then by the other holds what their union chooses, and nothing
if they do not agree (`filtered_filtered`).
-/

namespace ManifestBundle

namespace Selector

/-- The selectors do not want different values in one aspect. -/
def Agrees (s t : Selector) : Prop :=
  ∀ a v w, s.wanted? a = some v → t.wanted? a = some w → v = w

/-- The selector by subset with the criteria of both. Where they do not agree, the first has its
    way. -/
def union (s t : Selector) : Selector where
  group := s.group.or t.group
  version := s.version.or t.version
  kind := s.kind.or t.kind
  name := s.name.or t.name
  namespaceName := s.namespaceName.or t.namespaceName
  labels := t.labels.insertAll s.labels.entries
  annotations := t.annotations.insertAll s.annotations.entries
  labelMatch := .subset

variable {s t : Selector} {d : Document}

theorem wanted?_union (s t : Selector) (a : Aspect) :
    (s.union t).wanted? a = (s.wanted? a).or (t.wanted? a) := by
  cases a with
  | labelAt key => exact KeyValues.get?_insertAll_entries t.labels s.labels key
  | annotationAt key => exact KeyValues.get?_insertAll_entries t.annotations s.annotations key
  | _ => rfl

/-- The union of selectors that agree wants what either of them wants. -/
theorem wanted?_union_iff (h : s.Agrees t) (a : Aspect) (v : String) :
    (s.union t).wanted? a = some v ↔ s.wanted? a = some v ∨ t.wanted? a = some v := by
  rw [wanted?_union, Option.or_eq_some_iff]
  refine or_congr_right' fun hs => ⟨And.right, fun ht => ⟨?_, ht⟩⟩
  cases hw : s.wanted? a with
  | none => rfl
  | some w => exact absurd (h a w v hw ht ▸ hw) hs

/-- Selectors that select the same document agree. -/
theorem agrees_of_selects (hs : s.labelMatch = .subset) (ht : t.labelMatch = .subset)
    (hsd : s.selects d) (htd : t.selects d) : s.Agrees t := by
  intro a v w hv hw
  have hdv := ((selects_iff_of_subset hs).1 hsd).2 a v hv
  have hdw := ((selects_iff_of_subset ht).1 htd).2 a w hw
  exact Option.some.inj (hdv.symm.trans hdw)

/-- The union of selectors that agree selects what both of them do. -/
theorem selects_union_iff (hs : s.labelMatch = .subset) (ht : t.labelMatch = .subset)
    (h : s.Agrees t) : (s.union t).selects d ↔ s.selects d ∧ t.selects d := by
  have hunion : (s.union t).labelMatch = .subset := rfl
  rw [selects_iff_of_subset hunion, selects_iff_of_subset hs, selects_iff_of_subset ht]
  simp only [wanted?_union_iff h, or_imp, forall_and]
  exact and_and_left

end Selector

namespace Bundle

variable (b : Bundle) (s t : Selector)

theorem documents_filtered_filtered :
    ((b.filtered s).filtered t).documents =
      b.documents.filter fun d => t.selects d && s.selects d :=
  List.filter_filter

/-- The order of two filters does not count. -/
theorem filtered_comm : (b.filtered s).filtered t = (b.filtered t).filtered s :=
  congrArg Bundle.mk (List.filter_comm ..)

theorem filtered_self : (b.filtered s).filtered s = b.filtered s := by
  refine congrArg Bundle.mk ((b.documents_filtered_filtered s s).trans ?_)
  exact List.filter_congr fun d _ => Bool.and_self _

/-- Filtering by one selector and then by another one, both by subset, is filtering by the union of
    their criteria if they agree, and leaves nothing if they do not. So the order of the two makes
    no difference, and neither does filtering again. -/
theorem filtered_filtered (b : Bundle) {s t : Selector} (hs : s.labelMatch = .subset)
    (ht : t.labelMatch = .subset) :
    (s.Agrees t →
      (s.union t).labelMatch = .subset ∧
      (∀ a v, (s.union t).wanted? a = some v ↔ s.wanted? a = some v ∨ t.wanted? a = some v) ∧
      ((b.filtered s).filtered t).documents = b.filter (s.union t)) ∧
    (¬ s.Agrees t → ((b.filtered s).filtered t).documents = []) ∧
    (b.filtered s).filtered t = (b.filtered t).filtered s ∧
    (b.filtered s).filtered s = b.filtered s ∧
    (b.filtered t).filtered t = b.filtered t := by
  refine ⟨fun h => ⟨rfl, Selector.wanted?_union_iff h, ?_⟩, fun h => ?_, b.filtered_comm s t,
    b.filtered_self s, b.filtered_self t⟩
  · rw [documents_filtered_filtered]
    refine List.filter_congr fun d _ => ?_
    rw [Bool.eq_iff_iff, Selector.selects_union_iff hs ht h, Bool.and_eq_true, and_comm]
  · rw [documents_filtered_filtered, List.filter_eq_nil_iff]
    intro d _ hd
    obtain ⟨htd, hsd⟩ := Bool.and_eq_true_iff.1 hd
    exact h (Selector.agrees_of_selects hs ht hsd htd)

/-- One of the parts of an application. -/
def part (app tier : String) : Document where
  group := "apps"
  version := "v1"
  kind := "Deployment"
  name := app ++ "-" ++ tier
  labels := .ofEntries [("app", app), ("tier", tier)]

/-- Selectors that share a label agree if they want the same value of it. -/
theorem filtered_filtered_of_labels :
    let b : Bundle := ⟨[part "web" "front", part "web" "back", part "db" "back"]⟩
    let s : Selector := { kind := "Deployment", labels := .ofEntries [("app", "web")] }
    let t : Selector := { labels := .ofEntries [("tier", "back"), ("app", "web")] }
    let u : Selector := { labels := .ofEntries [("app", "db")] }
    s.Agrees t ∧ ((b.filtered s).filtered t).documents = b.filter (s.union t) ∧
      (b.filter (s.union t)).map Document.name = ["web-back"] ∧
      ¬ s.Agrees u ∧ ((b.filtered s).filtered u).documents = [] := by
  intro b s t u
  have hagrees : s.Agrees t :=
    Selector.agrees_of_selects (d := part "web" "back") rfl rfl (by decide +kernel)
      (by decide +kernel)
  have hdiffers : ¬ s.Agrees u := fun h =>
    absurd (h (.labelAt "app") "web" "db" (by decide +kernel) (by decide +kernel)) (by decide)
  have hst := b.filtered_filtered (s := s) (t := t) rfl rfl
  have hsu := b.filtered_filtered (s := s) (t := u) rfl rfl
  exact ⟨hagrees, (hst.1 hagrees).2.2, by decide +kernel, hdiffers, hsu.2.1 hdiffers⟩

end Bundle

end ManifestBundle
