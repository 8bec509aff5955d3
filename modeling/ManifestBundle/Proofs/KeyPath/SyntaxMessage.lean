import ManifestBundle.KeyPath.Parser
import ManifestBundle.Proofs.Text.Digits
import ManifestBundle.Proofs.Text.Split

/-!
# What the message of a syntax error names

The message of an error ends in a position exactly where the error has one, and then it is the
position of the error; a character in quotes before it is the one that the error finds fault
with (`names_of_message`). The last word of a message tells: it is a number or it is not
(`append_position_inj`, `append_ne_position`).
-/

namespace ManifestBundle.KeyPath.SyntaxError

/-- The position that an error names. -/
def position? : SyntaxError → Option Nat
  | unexpected _ n | emptySegment n | expectedIndex n | expectedBracket _ n => some n
  | indexTooLarge _ | unterminatedKey | bracketNotClosed => none

/-- The character that an error finds fault with. -/
def found? : SyntaxError → Option Char
  | unexpected c _ | expectedBracket c _ => some c
  | emptySegment _ | expectedIndex _ | indexTooLarge _ | unterminatedKey | bracketNotClosed => none

theorem not_space_mem_toString (n : Nat) : ' ' ∉ (toString n).toList := by
  intro h
  have hdigit := List.all_eq_true.1 (Text.all_isDigit_toDigits n) ' ' (by simpa using h)
  exact absurd hdigit (by decide)

/-- The last word of a text that ends in a position is the position. -/
theorem eq_of_append_position {said word front : String} {n : Nat} (hword : ' ' ∉ word.toList)
    (h : said ++ " " ++ word = front ++ " at position " ++ toString n) :
    said = front ++ " at position" ∧ word = toString n := by
  have hlists : said.toList ++ ' ' :: word.toList =
      (front ++ " at position").toList ++ ' ' :: (toString n).toList := by
    have := congrArg String.toList h
    simpa using this
  have hcut := Text.cutLast?_append said.toList hword
  rw [hlists, Text.cutLast?_append _ (not_space_mem_toString n)] at hcut
  obtain ⟨hsaid, hword⟩ := Prod.mk.inj (Option.some.inj hcut)
  exact ⟨String.toList_inj.1 hsaid.symm, String.toList_inj.1 hword.symm⟩

/-- What ends with a position is told from any other text that does. -/
theorem append_position_inj {said front : String} {m n : Nat}
    (h : said ++ " at position " ++ toString m = front ++ " at position " ++ toString n) :
    said = front ∧ m = n := by
  have hsplit : said ++ " at position " = said ++ " at position" ++ " " := by
    rw [String.append_assoc]
    rfl
  rw [hsplit] at h
  obtain ⟨hsaid, hm⟩ := eq_of_append_position (not_space_mem_toString m) h
  refine ⟨(String.append_left_inj _).1 hsaid, Text.toDigits_inj ?_⟩
  simpa using congrArg String.toList hm

/-- A text whose last word is no number does not end in a position. -/
theorem append_ne_position {said word : String} (hword : ' ' ∉ word.toList)
    (hletter : word.toList.all Text.isDigit = false) (front : String) (n : Nat) :
    said ++ " " ++ word ≠ front ++ " at position " ++ toString n := by
  intro h
  obtain ⟨-, rfl⟩ := eq_of_append_position hword h
  have hdigits := Text.all_isDigit_toDigits n
  simp [hdigits] at hletter

theorem quoted_inj {said front : String} {c d : Char}
    (h : said ++ " '" ++ String.singleton d ++ "'" = front ++ " '" ++ String.singleton c ++ "'") :
    d = c := by
  rw [String.append_left_inj] at h
  have hlists := congrArg String.toList h
  simp only [String.toList_append, String.toList_singleton] at hlists
  exact (List.cons.inj (List.append_inj_right' hlists rfl)).1

theorem ne_append_quote {said : String} (h : said.toList.getLast? ≠ some '\'') (front : String) :
    said ≠ front ++ "'" := by
  rintro rfl
  simp at h

/-- A message that ends in a position is that of an error which names this position, and if
    there is a character in quotes before it, the error finds fault with the character. -/
theorem names_of_message {e : SyntaxError} {n : Nat} {front : String}
    (h : e.message = front ++ " at position " ++ toString n) :
    e.position? = some n ∧
      ∀ said c, front = said ++ " '" ++ String.singleton c ++ "'" → e.found? = some c := by
  have hquote (said : String) (d : Char) (m : Nat) :
      said ++ " '" ++ String.singleton d ++ "'" ++ " at position " ++ toString m =
        said ++ " '" ++ String.singleton d ++ "' at position " ++ toString m := by
    simp only [String.append_assoc]
    rfl
  -- The wording of each error, cut before the position or else before the last word.
  cases e with
  | unexpected d m =>
    obtain ⟨rfl, rfl⟩ := append_position_inj ((hquote "unexpected" d m).trans h)
    exact ⟨rfl, fun said c hfront => congrArg some (quoted_inj hfront)⟩
  | expectedBracket d m =>
    obtain ⟨rfl, rfl⟩ := append_position_inj ((hquote "expected ']' but found" d m).trans h)
    exact ⟨rfl, fun said c hfront => congrArg some (quoted_inj hfront)⟩
  | emptySegment m =>
    have hsaid : "empty segment" ++ " at position " ++ toString m = _ := h
    obtain ⟨rfl, rfl⟩ := append_position_inj hsaid
    exact ⟨rfl, fun said c hfront => absurd hfront (ne_append_quote (by decide) _)⟩
  | expectedIndex m =>
    have hsaid : "expected index" ++ " at position " ++ toString m = _ := h
    obtain ⟨rfl, rfl⟩ := append_position_inj hsaid
    exact ⟨rfl, fun said c hfront => absurd hfront (ne_append_quote (by decide) _)⟩
  | indexTooLarge digits =>
    have hsaid : "index " ++ String.ofList digits ++ " is too" ++ " " ++ "large" =
        front ++ " at position " ++ toString n := by
      rw [← h, String.append_assoc, String.append_assoc]
      rfl
    exact absurd hsaid (append_ne_position (by decide) (by decide) front n)
  | unterminatedKey =>
    have hsaid : "unterminated quoted" ++ " " ++ "key" = _ := h
    exact absurd hsaid (append_ne_position (by decide) (by decide) front n)
  | bracketNotClosed =>
    have hsaid : "expected ']' but reached end of" ++ " " ++ "path" = _ := h
    exact absurd hsaid (append_ne_position (by decide) (by decide) front n)

end ManifestBundle.KeyPath.SyntaxError
