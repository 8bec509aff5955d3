import ManifestBundle.Text.Split
import Mathlib.Data.List.Basic

/-!
# Cutting a text at a character

A text is cut at the first of a character where nothing before the cut holds the character,
and at the last where nothing behind the cut does; each is one place at most, and the text is
not cut if it does not hold the character at all (`cutFirst?_eq_some_iff`,
`cutLast?_eq_some_iff`).

Its pieces between all of them do not hold the character (`notMem_of_mem_splitOn`), and pieces
that do not are those of the text in which they stand with the character between them
(`splitOn_join`).
-/

namespace ManifestBundle.Text

variable {sep : Char} {cs before after : List Char}

/-! ## At the first -/

/-- A text is not cut exactly if there is no separator in it. -/
theorem cutFirst?_eq_none_iff : cutFirst? sep cs = none ↔ sep ∉ cs := by
  induction cs with
  | nil => simp [cutFirst?]
  | cons c cs ih =>
    rw [cutFirst?, List.mem_cons, not_or, ← ih]
    by_cases hc : c = sep
    · simp [hc]
    · rw [if_neg hc, Option.map_eq_none_iff, and_iff_right (Ne.symm hc)]

/-- What is before a character is cut off at its first occurrence. -/
theorem cutFirst?_append (h : sep ∉ before) (after : List Char) :
    cutFirst? sep (before ++ sep :: after) = some (before, after) := by
  induction before with
  | nil => exact if_pos rfl
  | cons c before ih =>
    rw [List.mem_cons, not_or] at h
    rw [List.cons_append, cutFirst?, if_neg (Ne.symm h.1), ih h.2]
    rfl

/-- A text is cut at its first separator. -/
theorem cutFirst?_eq_some_iff :
    cutFirst? sep cs = some (before, after) ↔ cs = before ++ sep :: after ∧ sep ∉ before := by
  constructor
  · intro h
    refine ⟨cutFirst?_eq_some h, ?_⟩
    induction cs generalizing before with
    | nil => nomatch h
    | cons c cs ih =>
      rw [cutFirst?] at h
      split at h
      · cases h
        exact List.not_mem_nil
      · next hc =>
        obtain ⟨⟨front, after'⟩, hcut, he⟩ := Option.map_eq_some_iff.1 h
        cases he
        rw [List.mem_cons, not_or]
        exact ⟨Ne.symm hc, ih hcut⟩
  · rintro ⟨rfl, h⟩
    exact cutFirst?_append h after

/-! ## At the last -/

theorem cutLast?_eq_none_iff : cutLast? sep cs = none ↔ sep ∉ cs := by
  induction cs with
  | nil => simp [cutLast?]
  | cons c cs ih =>
    rw [cutLast?, List.mem_cons, not_or, ← ih]
    cases cutLast? sep cs with
    | some cut => simp
    | none => simp [eq_comm]

/-- What is behind a character that stands nowhere else is cut off behind it. -/
theorem cutLast?_append (before : List Char) (h : sep ∉ after) :
    cutLast? sep (before ++ sep :: after) = some (before, after) := by
  induction before with
  | nil =>
    rw [List.nil_append, cutLast?, cutLast?_eq_none_iff.2 h]
    exact if_pos rfl
  | cons c before ih => rw [List.cons_append, cutLast?, ih]

/-- A text is cut at its last separator. -/
theorem cutLast?_eq_some_iff :
    cutLast? sep cs = some (before, after) ↔ cs = before ++ sep :: after ∧ sep ∉ after := by
  constructor
  · intro h
    refine ⟨cutLast?_eq_some h, ?_⟩
    induction cs generalizing before with
    | nil => nomatch h
    | cons c cs ih =>
      rw [cutLast?] at h
      cases hcut : cutLast? sep cs with
      | some cut =>
        rw [hcut] at h
        cases h
        exact ih hcut
      | none =>
        rw [hcut] at h
        obtain ⟨-, h⟩ := Option.ite_none_right_eq_some.1 h
        cases h
        exact cutLast?_eq_none_iff.1 hcut
  · rintro ⟨rfl, h⟩
    exact cutLast?_append before h

/-! ## At all -/

theorem splitOn_eq (sep : Char) (cs : List Char) : splitOn sep cs = cs.splitOn sep := by
  induction cs with
  | nil => rfl
  | cons c cs ih =>
    rw [splitOn, List.splitOn, List.splitOnP_cons_eq_if_modifyHead, ← List.splitOn, ← ih]
    simp only [beq_iff_eq]
    split
    · rfl
    · obtain ⟨piece, pieces, hpieces⟩ := List.exists_cons_of_ne_nil (splitOn_ne_nil sep cs)
      rw [hpieces]
      rfl

/-- The pieces of a text are those before a character and those behind it. -/
theorem splitOn_append (sep : Char) (cs ds : List Char) :
    splitOn sep (cs ++ sep :: ds) = splitOn sep cs ++ splitOn sep ds := by
  simp only [splitOn_eq, List.splitOn_append_cons_self]

/-- There is no separator in a piece. -/
theorem notMem_of_mem_splitOn {piece : List Char} (h : piece ∈ splitOn sep cs) : sep ∉ piece := by
  induction cs generalizing piece with
  | nil =>
    rw [splitOn, List.mem_singleton] at h
    rw [h]
    exact List.not_mem_nil
  | cons c cs ih =>
    rw [splitOn] at h
    split at h
    · rcases List.mem_cons.1 h with rfl | h
      · exact List.not_mem_nil
      · exact ih h
    · next hc =>
      split at h
      · next hnil => exact absurd hnil (splitOn_ne_nil sep cs)
      · next first pieces hpieces =>
        rw [hpieces] at ih
        rcases List.mem_cons.1 h with rfl | h
        · rw [List.mem_cons, not_or]
          exact ⟨Ne.symm hc, ih List.mem_cons_self⟩
        · exact ih (List.mem_cons_of_mem first h)

/-- There is one piece more than there are separators. -/
theorem length_splitOn (sep : Char) (cs : List Char) :
    (splitOn sep cs).length = cs.count sep + 1 := by
  induction cs with
  | nil => rfl
  | cons c cs ih =>
    obtain ⟨piece, pieces, hpieces⟩ := List.exists_cons_of_ne_nil (splitOn_ne_nil sep cs)
    rw [splitOn, List.count_cons]
    by_cases hc : c = sep
    · simp [hc, ih]
    · simpa [hc, hpieces] using ih

/-- A piece holds characters of the text only. -/
theorem subset_of_mem_splitOn {piece : List Char} (h : piece ∈ splitOn sep cs) : piece ⊆ cs := by
  obtain ⟨i, hi⟩ := List.mem_iff_getElem?.1 h
  -- Among the pieces and the characters between them it stands at twice its place.
  have hmem : piece ∈ (splitOn sep cs).intersperse [sep] :=
    List.mem_of_getElem? (List.getElem?_intersperse_two_mul.trans hi)
  intro c hc
  rw [← join_splitOn sep cs]
  exact List.mem_flatten.2 ⟨piece, hmem, hc⟩

/-- Pieces without separators that are joined are parted again. -/
theorem splitOn_join {pieces : List (List Char)} (hne : pieces ≠ [])
    (h : ∀ piece ∈ pieces, sep ∉ piece) : splitOn sep (join sep pieces) = pieces := by
  rw [splitOn_eq, join, List.splitOn_intercalate sep h hne]

theorem splitOn_of_notMem (h : sep ∉ cs) : splitOn sep cs = [cs] := by
  have hjoin : join sep [cs] = cs := by simp [join]
  have hpieces : splitOn sep (join sep [cs]) = [cs] :=
    splitOn_join (List.cons_ne_nil cs []) (by simpa using h)
  rwa [hjoin] at hpieces

end ManifestBundle.Text
