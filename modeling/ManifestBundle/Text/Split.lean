/-!
# Cutting a text at a character

* `splitOn sep cs`: the pieces between the occurrences of `sep`, in order. There
  is always one more piece than there are occurrences, so there is at least one.
* `cutFirst? sep cs`: what stands before and after the first occurrence.
* `cutLast? sep cs`: what stands before and after the last one.

Gluing the pieces back with the character between them gives the text again
(`join_splitOn`, `cutFirst?_eq_some`, `cutLast?_eq_some`).
-/

namespace ManifestBundle.Text

/-- The pieces of a text between the occurrences of `sep`. -/
def splitOn (sep : Char) : List Char → List (List Char)
  | [] => [[]]
  | c :: cs =>
    if c = sep then [] :: splitOn sep cs
    else match splitOn sep cs with
      | [] => [[c]]
      | piece :: pieces => (c :: piece) :: pieces

/-- The pieces with `sep` between them. -/
def join (sep : Char) (pieces : List (List Char)) : List Char :=
  [sep].intercalate pieces

/-- What stands before and after the first occurrence of `sep`. -/
def cutFirst? (sep : Char) : List Char → Option (List Char × List Char)
  | [] => none
  | c :: cs =>
    if c = sep then some ([], cs)
    else (cutFirst? sep cs).map fun (before, after) => (c :: before, after)

/-- What stands before and after the last occurrence of `sep`. -/
def cutLast? (sep : Char) : List Char → Option (List Char × List Char)
  | [] => none
  | c :: cs =>
    match cutLast? sep cs with
    | some (before, after) => some (c :: before, after)
    | none => if c = sep then some ([], cs) else none

theorem splitOn_ne_nil (sep : Char) (cs : List Char) : splitOn sep cs ≠ [] := by
  cases cs with
  | nil => simp [splitOn]
  | cons c cs =>
    simp only [splitOn]
    split
    · simp
    · split <;> simp

/-- Nothing is lost by splitting. -/
theorem join_splitOn (sep : Char) (cs : List Char) : join sep (splitOn sep cs) = cs := by
  induction cs with
  | nil => rfl
  | cons c cs ih =>
    have hne := splitOn_ne_nil sep cs
    match h : splitOn sep cs with
    | [] => exact absurd h hne
    | piece :: pieces =>
      rw [h] at ih
      simp only [splitOn, h]
      split
      · next heq => subst heq; simpa [join, List.intercalate_cons_cons] using ih
      · cases pieces with
        | nil => simpa [join] using ih
        | cons p ps => simpa [join, List.intercalate_cons_cons] using ih

theorem cutFirst?_eq_some {sep : Char} {cs before after : List Char}
    (h : cutFirst? sep cs = some (before, after)) : cs = before ++ sep :: after := by
  induction cs generalizing before after with
  | nil => simp [cutFirst?] at h
  | cons c cs ih =>
    simp only [cutFirst?] at h
    split at h
    · next heq => cases h; simp [heq]
    · match hr : cutFirst? sep cs with
      | none => simp [hr] at h
      | some (b, a) =>
        simp only [hr, Option.map_some, Option.some.injEq, Prod.mk.injEq] at h
        obtain ⟨rfl, rfl⟩ := h
        simp [ih hr]

theorem cutLast?_eq_some {sep : Char} {cs before after : List Char}
    (h : cutLast? sep cs = some (before, after)) : cs = before ++ sep :: after := by
  induction cs generalizing before after with
  | nil => simp [cutLast?] at h
  | cons c cs ih =>
    simp only [cutLast?] at h
    match hr : cutLast? sep cs with
    | some (b, a) =>
      simp only [hr, Option.some.injEq, Prod.mk.injEq] at h
      obtain ⟨rfl, rfl⟩ := h
      simp [ih hr]
    | none =>
      simp only [hr] at h
      split at h
      · next heq => cases h; simp [heq]
      · simp at h

end ManifestBundle.Text
