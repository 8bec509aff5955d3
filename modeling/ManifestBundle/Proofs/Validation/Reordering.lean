import ManifestBundle.Proofs.Bundle.Duplicates
import ManifestBundle.Proofs.Validation.FailFast

/-!
# Documents in another order

A validation does not depend on the order of the documents. Violations are found document by
document, so they come in another order, too (`violations_perm`). Duplicates are counted in the
order of the documents, but which identities are duplicates, each of them once, is told by how
many documents have them (`duplicates_perm`). So a collecting validation finds the same problems
as often (`problems_perm`) and ends with the same verdict, and one that stops at the first
malformed document, which may be another one, fails all the same (`validate_of_perm`).
-/

namespace ManifestBundle

namespace Schema

variable (s : Schema) {b b' : Bundle}

/-- Violations are found document by document, so they come in the order of the documents. -/
theorem violations_perm (h : b.documents.Perm b'.documents) :
    (s.violations b).Perm (s.violations b') :=
  h.filterMap _

end Schema

namespace Bundle

variable {b b' : Bundle}

theorem withId_perm (h : b.documents.Perm b'.documents) (id : DocumentId) :
    (b.withId id).Perm (b'.withId id) :=
  h.filter _

/-- Which identities are duplicates does not depend on the order of the documents. -/
theorem duplicates_perm (h : b.documents.Perm b'.documents) : b.duplicates.Perm b'.duplicates := by
  refine (List.perm_ext_iff_of_nodup b.nodup_duplicates b'.nodup_duplicates).2 fun id => ?_
  rw [mem_duplicates_iff, mem_duplicates_iff, (withId_perm h id).length_eq]

/-- The same problems are found, each as often. -/
theorem problems_perm (s : Schema) (h : b.documents.Perm b'.documents) :
    (b.problems s true).Perm (b'.problems s true) :=
  ((s.violations_perm h).map _).append ((duplicates_perm h).map _)

/-- A verdict depends on how many problems there are, not on their order. -/
theorem verdict_error_of_perm {problems problems' : List String} (hsize : b.size = b'.size)
    (h : problems.Perm problems') : (b.verdict problems).error = (b'.verdict problems').error := by
  rw [verdict_error, verdict_error, h.length_eq, hsize]

/-- A collecting validation is the verdict on all problems. -/
theorem validate_collect {c : Config} {s : Schema} (hs : c.schema = .ok s) (b : Bundle) :
    b.validate c true = b.verdict (b.problems s true) := by
  rw [validate, hs]
  rfl

theorem validate_succeeds_of_perm {c : Config} {collect : Bool}
    (h : b.documents.Perm b'.documents) (hb : (b.validate c collect).error = none) :
    (b'.validate c collect).error = none := by
  rw [validate_succeeds_iff] at hb ⊢
  obtain ⟨s, hs, hvalid, hduplicates⟩ := hb
  have hnone := duplicates_perm h
  rw [hduplicates, List.nil_perm] at hnone
  exact ⟨s, hs, fun d hd => hvalid d (h.mem_iff.2 hd), hnone⟩

/-- A validation of the same documents in another order finds the same problems, each as often,
    and ends with the same verdict if it collects them; if it does not, it succeeds on both or
    fails on both. -/
theorem validate_of_perm {c : Config} {s : Schema} (hs : c.schema = .ok s) {b b' : Bundle}
    (h : b.documents.Perm b'.documents) :
    b.validate c true = b.verdict (b.problems s true) ∧
    b'.validate c true = b'.verdict (b'.problems s true) ∧
    (b.problems s true).Perm (b'.problems s true) ∧
    (b.validate c true).error = (b'.validate c true).error ∧
    ((b.validate c false).error = none ↔ (b'.validate c false).error = none) := by
  have hcollect := validate_collect hs
  have hproblems := problems_perm s h
  refine ⟨hcollect b, hcollect b', hproblems, ?_, ?_⟩
  · rw [hcollect, hcollect]
    exact verdict_error_of_perm h.length_eq hproblems
  · exact ⟨validate_succeeds_of_perm h, validate_succeeds_of_perm h.symm⟩

/-- Two documents that share an identity, with a malformed one between them, and their mirror
    image. -/
theorem validate_of_perm_reverse :
    let b : Bundle := ⟨[clusterNamespace "x", { clusterNamespace "y" with version := "" },
      clusterNamespace "x", clusterNamespace ""]⟩
    let b' : Bundle := ⟨b.documents.reverse⟩
    Config.schema {} = .ok .builtin ∧ b.documents.Perm b'.documents ∧
      (b.validate {} true).error = some (.problems 3 4) ∧
      (b'.validate {} true).error = some (.problems 3 4) ∧
      (b.validate {} false).error ≠ none ∧ (b'.validate {} false).error ≠ none := by
  intro b b'
  have hs : Config.schema {} = .ok .builtin := rfl
  have hperm : b.documents.Perm b'.documents := b.documents.reverse_perm.symm
  obtain ⟨-, -, -, hverdict, hstops⟩ := validate_of_perm hs hperm
  have hcollects : (b.validate {} true).error = some (.problems 3 4) := by decide +kernel
  have hfails : (b.validate {} false).error ≠ none := by decide +kernel
  exact ⟨hs, hperm, hcollects, hverdict ▸ hcollects, hfails, mt hstops.2 hfails⟩

end Bundle

end ManifestBundle
