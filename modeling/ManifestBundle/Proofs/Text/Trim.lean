import ManifestBundle.Text.Blank
import Mathlib.Data.List.TakeWhile

/-!
# Trimming

Trimming takes blanks off both ends of a text and leaves a text whose ends are not blank
(`exists_trim`, `isTrimmed_trim`). It does nothing to such a text (`trim_of_isTrimmed`), and
blanks that are added at the ends make no difference to it (`trim_blanks_append`,
`trim_append_blanks`). At a character that is no blank it can be done on either side
(`trim_append_cons`).
-/

namespace ManifestBundle.Text

/-- The text is empty or has no blank at either end. -/
structure IsTrimmed (cs : List Char) : Prop where
  head (c : Char) : cs.head? = some c → isBlank c = false
  last (c : Char) : cs.getLast? = some c → isBlank c = false

variable {c : Char} {cs ds : List Char}

theorem allBlank_iff : allBlank cs ↔ ∀ c ∈ cs, isBlank c :=
  List.all_eq_true

theorem allBlank_reverse : allBlank cs.reverse = allBlank cs :=
  List.all_reverse

/-! ## One end -/

/-- Nothing is left of blanks alone. -/
theorem trimStart_eq_nil_iff : trimStart cs = [] ↔ allBlank cs := by
  rw [trimStart, List.dropWhile_eq_nil_iff, allBlank_iff]

/-- A text that does not start with a blank stays as it is. -/
theorem trimStart_of_head (h : ∀ c, cs.head? = some c → isBlank c = false) :
    trimStart cs = cs := by
  cases cs with
  | nil => rfl
  | cons c cs => simp [trimStart, h c rfl]

/-- Blanks in front are dropped, all of them. -/
theorem trimStart_blanks_append (h : allBlank cs) (ds : List Char) :
    trimStart (cs ++ ds) = trimStart ds :=
  List.dropWhile_append_of_pos (allBlank_iff.1 h)

/-- What stands behind a character that is no blank is not reached. -/
theorem trimStart_append_cons (h : isBlank c = false) (cs ds : List Char) :
    trimStart (cs ++ c :: ds) = trimStart cs ++ c :: ds := by
  induction cs with
  | nil => simp [trimStart, h]
  | cons b cs ih =>
    by_cases hb : isBlank b
    · simpa [trimStart, hb] using ih
    · simp [trimStart, hb]

/-- What is dropped in front are blanks. -/
theorem exists_trimStart (cs : List Char) : ∃ front, cs = front ++ trimStart cs ∧ allBlank front :=
  ⟨cs.takeWhile isBlank, List.takeWhile_append_dropWhile.symm, List.all_takeWhile⟩

/-- What is left starts with no blank. -/
theorem head_trimStart (h : (trimStart cs).head? = some c) : isBlank c = false := by
  have := List.head?_dropWhile_not isBlank cs
  rw [trimStart] at h
  simpa [h] using this

theorem trimEnd_of_last (h : ∀ c, cs.getLast? = some c → isBlank c = false) : trimEnd cs = cs := by
  rw [trimEnd, trimStart_of_head, List.reverse_reverse]
  simpa using h

/-- Blanks at the end are dropped, all of them. -/
theorem trimEnd_append_blanks (h : allBlank ds) (cs : List Char) :
    trimEnd (cs ++ ds) = trimEnd cs := by
  rw [trimEnd, List.reverse_append, trimStart_blanks_append (allBlank_reverse.trans h), trimEnd]

theorem trimEnd_append_cons (h : isBlank c = false) (cs ds : List Char) :
    trimEnd (cs ++ c :: ds) = cs ++ c :: trimEnd ds := by
  have hreverse : (cs ++ c :: ds).reverse = ds.reverse ++ c :: cs.reverse := by simp
  rw [trimEnd, hreverse, trimStart_append_cons h, trimEnd]
  simp

/-- What is dropped at the end are blanks. -/
theorem exists_trimEnd (cs : List Char) : ∃ back, cs = trimEnd cs ++ back ∧ allBlank back := by
  obtain ⟨front, hcs, hfront⟩ := exists_trimStart cs.reverse
  refine ⟨front.reverse, ?_, allBlank_reverse.trans hfront⟩
  rw [trimEnd, ← List.reverse_append, ← hcs, List.reverse_reverse]

/-- What is left ends with no blank. -/
theorem last_trimEnd (h : (trimEnd cs).getLast? = some c) : isBlank c = false := by
  rw [trimEnd, List.getLast?_reverse] at h
  exact head_trimStart h

/-! ## Both ends -/

/-- The text without the blanks at its ends. -/
theorem exists_trim (cs : List Char) :
    ∃ front back, cs = front ++ trim cs ++ back ∧ allBlank front ∧ allBlank back := by
  obtain ⟨front, hfront, hfrontBlank⟩ := exists_trimStart cs
  obtain ⟨back, hback, hbackBlank⟩ := exists_trimEnd (trimStart cs)
  refine ⟨front, back, ?_, hfrontBlank, hbackBlank⟩
  rw [trim, List.append_assoc, ← hback, ← hfront]

theorem mem_of_mem_trim (h : c ∈ trim cs) : c ∈ cs := by
  obtain ⟨front, back, hcs, -, -⟩ := exists_trim cs
  rw [hcs]
  exact List.mem_append_left _ (List.mem_append_right _ h)

/-- A text that has been trimmed has no blank at either end. -/
theorem isTrimmed_trim (cs : List Char) : IsTrimmed (trim cs) := by
  refine ⟨fun c hc => ?_, fun c hc => last_trimEnd hc⟩
  obtain ⟨back, hback, -⟩ := exists_trimEnd (trimStart cs)
  have hhead : (trimStart cs).head? = some c := by
    rw [hback, List.head?_append, show (trimEnd (trimStart cs)).head? = some c from hc]
    rfl
  exact head_trimStart hhead

/-- A text without a blank at either end stays as it is. -/
theorem trim_of_isTrimmed (h : IsTrimmed cs) : trim cs = cs := by
  rw [trim, trimStart_of_head h.head, trimEnd_of_last h.last]

theorem trim_blanks_append (h : allBlank cs) (ds : List Char) : trim (cs ++ ds) = trim ds := by
  rw [trim, trimStart_blanks_append h, trim]

/-- Trimming leaves nothing exactly of blanks. -/
theorem trim_eq_nil_iff : trim cs = [] ↔ allBlank cs := by
  constructor
  · intro h
    obtain ⟨front, back, hcs, hfront, hback⟩ := exists_trim cs
    rw [h, List.append_nil] at hcs
    rw [hcs, allBlank, List.all_append, ← allBlank, ← allBlank, hfront, hback]
    rfl
  · intro h
    rw [trim, trimStart_eq_nil_iff.2 h]
    rfl

theorem trim_append_blanks (h : allBlank ds) (cs : List Char) : trim (cs ++ ds) = trim cs := by
  by_cases hcs : allBlank cs
  · rw [trim_blanks_append hcs, trim_eq_nil_iff.2 h, trim_eq_nil_iff.2 hcs]
  · have hne : (cs.dropWhile isBlank).isEmpty = false := by
      rw [Bool.eq_false_iff, Ne, List.isEmpty_iff]
      exact fun hnil => hcs (trimStart_eq_nil_iff.1 hnil)
    rw [trim, trimStart, List.dropWhile_append, hne]
    exact trimEnd_append_blanks h _

/-- Around a character that is no blank, each side is trimmed at its end. -/
theorem trim_append_cons (h : isBlank c = false) (cs ds : List Char) :
    trim (cs ++ c :: ds) = trimStart cs ++ c :: trimEnd ds := by
  rw [trim, trimStart_append_cons h, trimEnd_append_cons h]

/-- Trimming does not see blanks that have been in front. -/
theorem trim_trimStart (cs : List Char) : trim (trimStart cs) = trim cs := by
  obtain ⟨front, hcs, hfront⟩ := exists_trimStart cs
  have htrim := trim_blanks_append hfront (trimStart cs)
  rw [← hcs] at htrim
  exact htrim.symm

/-- Trimming does not see blanks that have been at the end. -/
theorem trim_trimEnd (cs : List Char) : trim (trimEnd cs) = trim cs := by
  obtain ⟨back, hcs, hback⟩ := exists_trimEnd cs
  have htrim := trim_append_blanks hback (trimEnd cs)
  rw [← hcs] at htrim
  exact htrim.symm

end ManifestBundle.Text
