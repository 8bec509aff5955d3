import ManifestBundle.Bundle

/-!
# What a selection finds

A selection picks from the documents that the selector selects: the only one
(`selectOne_eq_ok_iff` and the two ways in which there is no only one), or the one at
a position (`selectAt_eq_ok_iff`). The position that the selector itself carries makes
no difference to which documents it selects (`filter_withIndex`).
-/

namespace ManifestBundle.Bundle

variable (b : Bundle) (s : Selector)

/-- The position of a selector is no criterion. -/
@[simp] theorem filter_withIndex (index : Option Nat) : b.filter { s with index } = b.filter s :=
  rfl

/-- The only document that a selector selects is found. -/
theorem selectOne_eq_ok_iff {d : Document} : b.selectOne s = .ok d ↔ b.filter s = [d] := by
  unfold selectOne
  split <;> simp_all

/-- Nothing is found exactly if the selector selects nothing. -/
theorem selectOne_eq_notFound_iff :
    b.selectOne s = .error (.notFound s) ↔ (b.filter s).length = 0 := by
  unfold selectOne
  split <;> simp_all

theorem selectOne_eq_notUnique_iff :
    b.selectOne s = .error (.notUnique s (b.filter s).length) ↔ 2 ≤ (b.filter s).length := by
  unfold selectOne
  split
  · next h => simp [h]
  · next d h => simp [h]
  · next ds hnil hone =>
    match h : b.filter s with
    | [] => exact absurd h hnil
    | [d] => exact absurd h (hone d)
    | d :: e :: ds => simp

/-- A document is found by its position among those that are selected. -/
theorem selectAt_eq_ok_iff {index : Nat} {d : Document} :
    b.selectAt s index = .ok d ↔ (b.filter s)[index]? = some d := by
  simp only [selectAt]
  split <;> simp_all

theorem selectAt_eq_outOfRange_iff {index : Nat} :
    b.selectAt s index = .error (.outOfRange s index (b.filter s).length) ↔
      (b.filter s).length ≤ index := by
  simp only [selectAt]
  split
  · next d h => simpa using (List.getElem?_eq_some_iff.1 h).1
  · next h => simpa using h

end ManifestBundle.Bundle
