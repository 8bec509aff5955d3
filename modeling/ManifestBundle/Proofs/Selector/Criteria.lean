import ManifestBundle.Proofs.KeyValues.Lookup
import ManifestBundle.Selector

/-!
# Criteria one by one

A document shows a value in many *aspects*: the five texts of its identity, and each of its labels
and annotations. A selector that asks for labels and annotations as a subset wants a value in some
of these aspects, and selects the named documents that have what it wants
(`selects_iff_of_subset`). So nothing has to be said about each field on its own.
-/

namespace ManifestBundle

/-- In what a criterion can tell documents apart. -/
inductive Aspect where
  | group
  | version
  | kind
  | name
  | namespaceName
  | labelAt (key : String)
  | annotationAt (key : String)

theorem Aspect.forall_iff {p : Aspect → Prop} :
    (∀ a, p a) ↔ p group ∧ p version ∧ p kind ∧ p name ∧ p namespaceName ∧
      (∀ key, p (labelAt key)) ∧ ∀ key, p (annotationAt key) := by
  constructor
  · intro h
    exact ⟨h _, h _, h _, h _, h _, fun _ => h _, fun _ => h _⟩
  · rintro ⟨hgroup, hversion, hkind, hname, hnamespace, hlabels, hannotations⟩ a
    cases a with
    | group => exact hgroup
    | version => exact hversion
    | kind => exact hkind
    | name => exact hname
    | namespaceName => exact hnamespace
    | labelAt key => exact hlabels key
    | annotationAt key => exact hannotations key

/-- What the document has in an aspect. -/
def Document.aspect? (d : Document) : Aspect → Option String
  | .group => d.group
  | .version => d.version
  | .kind => d.kind
  | .name => d.name
  | .namespaceName => d.namespaceName
  | .labelAt key => d.labels.get? key
  | .annotationAt key => d.annotations.get? key

namespace Selector

/-- What the selector wants in an aspect. -/
def wanted? (s : Selector) : Aspect → Option String
  | .group => s.group
  | .version => s.version
  | .kind => s.kind
  | .name => s.name
  | .namespaceName => s.namespaceName
  | .labelAt key => s.labels.get? key
  | .annotationAt key => s.annotations.get? key

variable {s : Selector} {d : Document}

/-- A criterion admits what is equal to it, and anything if there is none. -/
theorem admits_iff {wanted : Option String} {actual : String} :
    admits wanted actual ↔ ∀ v, wanted = some v → some actual = some v := by
  cases wanted <;> simp [admits, eq_comm]

/-- By default the wanted entries must be among the others. -/
theorem admitsAll_subset (wanted actual : KeyValues) :
    admitsAll .subset wanted actual = wanted.isSubsetOf actual := by
  rw [admitsAll, Bool.or_eq_right_iff_imp]
  intro h
  rw [KeyValues.isSubsetOf_iff]
  intro k v hv
  rw [KeyValues.get?_of_isEmpty h] at hv
  cases hv

/-- A selector by subset selects the named documents that have what it wants. -/
theorem selects_iff_of_subset (h : s.labelMatch = .subset) :
    s.selects d ↔
      d.isMaterialized ∧ ∀ a v, s.wanted? a = some v → d.aspect? a = some v := by
  simp only [selects, h, Bool.and_eq_true, and_assoc, admits_iff, admitsAll_subset,
    KeyValues.isSubsetOf_iff, Aspect.forall_iff]
  rfl

end Selector

end ManifestBundle
