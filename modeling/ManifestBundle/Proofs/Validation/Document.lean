import ManifestBundle.Validation
import Mathlib.Data.List.Basic
import Mathlib.Tactic.SplitIfs

/-!
# Valid documents

What a schema asks of a document comes in two parts: what every document must have, whatever the
rules, and a value at each path that the rules require of it (`validate_eq_ok_iff`). So the verdict
depends on the schema by the required paths only (`validate_congr`), and a document stays valid
when fewer are required (`validate_eq_ok_of_subset`).
-/

namespace ManifestBundle.Schema

variable {s s' : Schema} {d : Document}

theorem missingPath?_eq_none_iff :
    s.missingPath? d = none ↔
      ∀ path ∈ s.requiredPaths d, (d.data.resolve? path.segments).isSome := by
  simp [missingPath?, Option.isSome_iff_ne_none]

/-- The rules come last, after what every document must have. -/
theorem defect?_eq_none_iff :
    s.defect? d = none ↔ empty.defect? d = none ∧ s.missingPath? d = none := by
  have hempty : empty.missingPath? d = none := rfl
  rw [defect?, defect?, hempty]
  split_ifs <;> simp

/-- A document is valid if it is under the schema without rules and has a value at every path that
    is required of it. -/
theorem validate_eq_ok_iff :
    s.validate d = .ok () ↔
      empty.validate d = .ok () ∧
        ∀ path ∈ s.requiredPaths d, (d.data.resolve? path.segments).isSome := by
  have hok (s : Schema) : s.validate d = .ok () ↔ s.defect? d = none := by
    rw [validate]
    cases s.defect? d <;> simp
  rw [hok, hok, defect?_eq_none_iff, missingPath?_eq_none_iff]

/-- Two schemas that require the same of a document have the same verdict on it. -/
theorem validate_congr (h : s.requiredPaths d = s'.requiredPaths d) :
    s.validate d = s'.validate d := by
  simp only [validate, defect?, missingPath?, h]

theorem validate_eq_ok_of_subset (h : s'.requiredPaths d ⊆ s.requiredPaths d)
    (hs : s.validate d = .ok ()) : s'.validate d = .ok () := by
  rw [validate_eq_ok_iff] at hs ⊢
  exact ⟨hs.1, fun path hpath => hs.2 path (h hpath)⟩

end ManifestBundle.Schema
