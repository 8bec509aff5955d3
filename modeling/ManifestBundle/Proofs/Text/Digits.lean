import Mathlib.Algebra.Group.Nat.Defs
import Mathlib.Data.List.Basic
import ManifestBundle.Text.Digit

/-!
# Runs of characters and numerals

A run of characters of a class is told from the text behind it by the first
character that is not of the class (`takeWhile_run`, `dropWhile_run`). The digits of
a number are such a run, as all of them are digits of ASCII. A code point is read
back from its hexadecimal digits (`charOfHex?_paddedHex`).
-/

namespace ManifestBundle.Text

variable {α : Type} {p : α → Bool} {run rest : List α}

/-- A run is taken up to its end. -/
theorem takeWhile_run (hrun : run.all p) (hrest : ∀ c, rest.head? = some c → p c = false) :
    (run ++ rest).takeWhile p = run := by
  rw [List.takeWhile_append_of_pos (List.all_eq_true.1 hrun)]
  cases rest with
  | nil => simp
  | cons c rest => simp [hrest c rfl]

/-- A run is dropped up to its end. -/
theorem dropWhile_run (hrun : run.all p) (hrest : ∀ c, rest.head? = some c → p c = false) :
    (run ++ rest).dropWhile p = rest := by
  rw [List.dropWhile_append_of_pos (List.all_eq_true.1 hrun)]
  cases rest with
  | nil => rfl
  | cons c rest => simp [hrest c rfl]

/-- A text is a run of characters of a class and what follows it. -/
theorem exists_run (p : α → Bool) (cs : List α) :
    ∃ run rest, cs = run ++ rest ∧ run.all p ∧ ∀ c, rest.head? = some c → p c = false := by
  refine ⟨cs.takeWhile p, cs.dropWhile p, List.takeWhile_append_dropWhile.symm, ?_, ?_⟩
  · exact List.all_takeWhile
  · intro c hc
    have := List.head?_dropWhile_not p cs
    simpa [hc] using this

theorem isDigit_eq (c : Char) : isDigit c = c.isDigit := by
  simp only [isDigit, Char.isDigit, Char.le_def]

/-- A number is written with digits only. -/
theorem all_isDigit_toDigits (n : Nat) : (Nat.toDigits 10 n).all isDigit := by
  rw [List.all_eq_true]
  intro c hc
  rw [isDigit_eq]
  exact Nat.isDigit_of_mem_toDigits (by decide) (by decide) hc

theorem exists_digit_of_isDigit {c : Char} (h : isDigit c) : ∃ d < 10, c = d.digitChar := by
  simp only [isDigit, Bool.and_eq_true, decide_eq_true_eq, Char.le_def, UInt32.le_iff_toNat_le] at h
  have hlow : 48 ≤ c.toNat := h.1
  have hupp : c.toNat ≤ 57 := h.2
  refine ⟨c.toNat - 48, by omega, Char.toNat_inj.1 ?_⟩
  rw [Nat.toNat_digitChar_of_lt_ten (by omega)]
  omega

/-- The digits of a positive number start with no zero. -/
theorem head?_toDigits_ne_zero {n : Nat} (hn : 0 < n) : (Nat.toDigits 10 n).head? ≠ some '0' := by
  induction n using Nat.strongRecOn with
  | ind n ih =>
    rw [Nat.toDigits_eq_if (by decide)]
    split
    · next h =>
      have hdigit : ∀ d < 10, 0 < d → d.digitChar ≠ '0' := by decide
      simpa using hdigit n h hn
    · next h =>
      rw [List.head?_append_of_ne_nil _ Nat.toDigits_ne_nil]
      exact ih (n / 10) (by omega) (by omega)

/-- A number is told by its digits. -/
theorem toDigits_inj {m n : Nat} (h : Nat.toDigits 10 m = Nat.toDigits 10 n) : m = n := by
  rw [← Nat.ofDigitChars_ten_toDigits (n := m), h, Nat.ofDigitChars_ten_toDigits]

theorem minus_notMem_toDigits (n : Nat) : '-' ∉ Nat.toDigits 10 n := fun h =>
  absurd (List.all_eq_true.1 (all_isDigit_toDigits n) _ h) (by decide)

/-- An integer is told by its sign and digits. -/
theorem integer_inj {i j : Int} (h : integer i = integer j) : i = j := by
  have hminus {m n : Nat} : '-' :: Nat.toDigits 10 m ≠ Nat.toDigits 10 n := fun h =>
    minus_notMem_toDigits n (h ▸ List.mem_cons_self)
  rw [integer, integer] at h
  split at h <;> split at h
  · have := toDigits_inj (List.cons.inj h).2
    omega
  · exact absurd h hminus
  · exact absurd h.symm hminus
  · have := toDigits_inj h
    omega

/-! ## Hexadecimal digits -/

theorem hexValue?_toUpper_digitChar {d : Nat} (h : d < 16) :
    hexValue? d.digitChar.toUpper = some d := by
  revert d
  decide

/-- Zeros in front of a number do not count. -/
theorem foldlM_hexValue?_replicate (k : Nat) :
    (List.replicate k '0').foldlM (fun n c => (hexValue? c).map (16 * n + ·)) 0 = some 0 := by
  induction k with
  | zero => rfl
  | succ k ih => exact ih

/-- Hexadecimal digits are read back as the number, be they upper or lower case. -/
theorem foldlM_hexValue?_hex (n : Nat) :
    ((hex n).map Char.toUpper).foldlM (fun n c => (hexValue? c).map (16 * n + ·)) 0 = some n := by
  induction n using Nat.strongRecOn with
  | ind n ih =>
    rw [hex, Nat.toDigits_eq_if (by decide)]
    split
    · next h => simp [hexValue?_toUpper_digitChar h]
    · next h =>
      have hd : n % 16 < 16 := Nat.mod_lt _ (by decide)
      have hn : n / 16 < n := by omega
      rw [List.map_append, List.foldlM_append, ← hex, ih _ hn]
      simp only [Option.bind_eq_bind, Option.bind_some, List.map_cons, List.map_nil,
        List.foldlM_cons, hexValue?_toUpper_digitChar hd, List.foldlM_nil, Option.map_some,
        Option.pure_def]
      rw [Nat.div_add_mod]

theorem exists_digit_of_mem_hex {c : Char} {n : Nat} (h : c ∈ hex n) :
    ∃ d < 16, c = d.digitChar := by
  induction n using Nat.strongRecOn with
  | ind n ih =>
    rw [hex, Nat.toDigits_eq_if (by decide)] at h
    split at h
    · next hn => exact ⟨n, hn, List.mem_singleton.1 h⟩
    · next hn =>
      rcases List.mem_append.1 h with h | h
      · exact ih (n / 16) (by omega) h
      · exact ⟨n % 16, Nat.mod_lt _ (by decide), List.mem_singleton.1 h⟩

theorem exists_digit_of_mem_paddedHex {c : Char} {width n : Nat} (h : c ∈ paddedHex width n) :
    ∃ d < 16, c = d.digitChar := by
  rcases List.mem_append.1 h with h | h
  · exact ⟨0, by decide, List.eq_of_mem_replicate h⟩
  · exact exists_digit_of_mem_hex h

/-- A number that fits is filled up to the width exactly. -/
theorem length_paddedHex {width n : Nat} (hw : 0 < width) (h : n < 16 ^ width) :
    (paddedHex width n).length = width := by
  have hle : (hex n).length ≤ width := (Nat.length_toDigits_le_iff (by decide) hw).2 h
  rw [paddedHex, List.length_append, List.length_replicate]
  omega

/-- A character is read back from its code point in hexadecimal digits. -/
theorem charOfHex?_paddedHex (c : Char) (width : Nat) :
    charOfHex? ((paddedHex width c.toNat).map Char.toUpper) = some c := by
  have hzeros : (List.replicate (width - (hex c.toNat).length) '0').map Char.toUpper =
      List.replicate (width - (hex c.toNat).length) '0' := List.map_replicate
  rw [charOfHex?, paddedHex, List.map_append, hzeros, List.foldlM_append,
    foldlM_hexValue?_replicate]
  have hvalid : c.toNat.isValidChar := c.valid
  simp [foldlM_hexValue?_hex, hvalid]

end ManifestBundle.Text
