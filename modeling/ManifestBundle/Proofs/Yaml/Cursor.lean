import ManifestBundle.Proofs.Text.Digits
import ManifestBundle.Yaml.Cursor
import ManifestBundle.Yaml.ScalarText

/-!
# Moving along a text

`Mark.after m cs` is where a text that starts at `m` ends, and skipping a text leads
there (`Cursor.skip_append`). Of a place three things matter: its index grows with
every character, its line with every line break, and its column is counted from the
last line break (`Mark.column_after_line`).
-/

namespace ManifestBundle.Yaml

/-! ## Marks -/

namespace Mark

/-- The place behind a text. -/
def after (m : Mark) (cs : List Char) : Mark :=
  cs.foldl Mark.next m

variable (m : Mark)

@[simp] theorem after_nil : m.after [] = m :=
  rfl

@[simp] theorem after_cons (c : Char) (cs : List Char) : m.after (c :: cs) = (m.next c).after cs :=
  rfl

/-- A text ends where its second part does. -/
@[simp] theorem after_append (cs ds : List Char) : m.after (cs ++ ds) = (m.after cs).after ds :=
  List.foldl_append

@[simp] theorem index_next (c : Char) : (m.next c).index = m.index + 1 := by
  unfold next
  split <;> rfl

/-- Every character counts for the index. -/
@[simp] theorem index_after (cs : List Char) : (m.after cs).index = m.index + cs.length := by
  induction cs generalizing m with
  | nil => rfl
  | cons c cs ih =>
    rw [after_cons, ih, index_next, List.length_cons]
    omega

theorem line_le_next (c : Char) : m.line ≤ (m.next c).line := by
  unfold next
  split
  · exact Nat.le_succ _
  · exact Nat.le_refl _

/-- No text leads to an earlier line. -/
theorem line_le_after (cs : List Char) : m.line ≤ (m.after cs).line := by
  induction cs generalizing m with
  | nil => exact Nat.le_refl _
  | cons c cs ih => exact Nat.le_trans (m.line_le_next c) (ih _)

/-- A text with a line break ends in a later line. -/
theorem line_lt_after {cs : List Char} (h : cs.any isBreak) : m.line < (m.after cs).line := by
  induction cs generalizing m with
  | nil => simp at h
  | cons c cs ih =>
    rw [List.any_cons, Bool.or_eq_true] at h
    rcases h with h | h
    · refine Nat.lt_of_lt_of_le ?_ ((m.next c).line_le_after cs)
      simp [next, h]
    · exact Nat.lt_of_le_of_lt (m.line_le_next c) (ih _ h)

/-- Within a line a character leads one column further. -/
theorem next_of_not_break {c : Char} (h : isBreak c = false) :
    m.next c = ⟨m.index + 1, m.line, m.column + 1⟩ := by
  simp [next, h]

/-- A text without line breaks ends in the line it starts in. -/
theorem after_of_no_break {cs : List Char} (h : cs.any isBreak = false) :
    m.after cs = ⟨m.index + cs.length, m.line, m.column + cs.length⟩ := by
  induction cs generalizing m with
  | nil => rfl
  | cons c cs ih =>
    rw [List.any_cons, Bool.or_eq_false_iff] at h
    rw [after_cons, ih _ h.2, next_of_not_break m h.1, List.length_cons]
    simp only [Mark.mk.injEq, true_and]
    omega

/-- Within a line a text leads as many columns further as it has characters. -/
theorem column_after_of_no_break {cs : List Char} (h : cs.any isBreak = false) :
    (m.after cs).column = m.column + cs.length := by
  rw [after_of_no_break m h]

/-- A line break leads to the first column. -/
@[simp] theorem column_next_of_break {c : Char} (h : isBreak c) : (m.next c).column = 0 := by
  simp [next, h]

/-- Behind a line break the column counts the characters of the line. -/
theorem column_after_line {c : Char} {cs : List Char} (hc : isBreak c)
    (hcs : cs.any isBreak = false) : (m.after (c :: cs)).column = cs.length := by
  rw [after_cons, column_after_of_no_break _ hcs, column_next_of_break m hc, Nat.zero_add]

/-- Behind a run of line breaks the column counts the characters of the line. -/
theorem column_after_breaks {breaks cs : List Char} (hne : breaks ≠ [])
    (hbreaks : breaks.all isBreak) (hcs : cs.any isBreak = false) :
    (m.after (breaks ++ cs)).column = cs.length := by
  obtain ⟨run, c, rfl⟩ := (List.eq_nil_or_concat' breaks).resolve_left hne
  have hc : isBreak c := List.all_eq_true.1 hbreaks c (List.mem_append_right _ List.mem_cons_self)
  rw [List.append_assoc, after_append]
  exact column_after_line _ hc hcs

end Mark

/-! ## Cursors -/

namespace Cursor

variable (m : Mark)

theorem next_cons (c : Char) (cs : List Char) : (⟨c :: cs, m⟩ : Cursor).next = ⟨cs, m.next c⟩ :=
  rfl

/-- Skipping a text leads behind it. -/
theorem skip_append (cs rest : List Char) :
    (⟨cs ++ rest, m⟩ : Cursor).skip cs.length = ⟨rest, m.after cs⟩ := by
  induction cs generalizing m with
  | nil => rfl
  | cons c cs ih =>
    rw [List.cons_append, List.length_cons, skip, next_cons, ih]
    rfl

/-- A run of characters of a class, up to the first one that is not of the class. -/
theorem span_run {p : Char → Bool} {run rest : List Char} (hrun : run.all p)
    (hrest : ∀ c, rest.head? = some c → p c = false) :
    (⟨run ++ rest, m⟩ : Cursor).span p = (run, ⟨rest, m.after run⟩) := by
  simp only [span, Text.takeWhile_run hrun hrest, skip_append]

end Cursor

/-! ## Spaces and line breaks -/

theorem isBreak_newline : isBreak '\n' = true :=
  rfl

theorem not_isBreak_space : isBreak ' ' = false := by
  decide

/-- A line break is no blank. -/
theorem not_isBlank_of_isBreak {c : Char} (h : isBreak c) : isBlank c = false := by
  simp only [isBreak, Bool.or_eq_true, decide_eq_true_eq] at h
  rcases h with (rfl | rfl) | rfl <;> decide

@[simp] theorem any_isBreak_pad (n : Nat) : (pad n).any isBreak = false := by
  simp [pad, not_isBreak_space]

@[simp] theorem length_pad (n : Nat) : (pad n).length = n :=
  List.length_replicate

theorem pad_succ (n : Nat) : pad (n + 1) = ' ' :: pad n :=
  rfl

/-- A text starts with some number of spaces. -/
theorem exists_pad (cs : List Char) :
    ∃ n rest, cs = pad n ++ rest ∧ ∀ c, rest.head? = some c → c ≠ ' ' := by
  obtain ⟨run, rest, rfl, hrun, hrest⟩ := Text.exists_run (· = ' ') cs
  refine ⟨run.length, rest, ?_, fun c hc => by simpa using hrest c hc⟩
  rw [pad, ← List.eq_replicate_iff.2 ⟨rfl, fun c hc => ?_⟩]
  simpa using List.all_eq_true.1 hrun c hc

/-- White space within a line stands for itself. -/
theorem foldGap_of_no_break {gap : List Char} (h : gap.any isBreak = false) :
    foldGap gap = gap := by
  have hnil : gap.filter isBreak = [] := by
    rw [List.filter_eq_nil_iff]
    simpa using h
  rw [foldGap, hnil]

/-- Of the printable characters of a line only the space is white space. -/
theorem isWhite_of_isPrintable {c : Char} (h : isPrintable c && !isBreak c) :
    isWhite c = decide (c = ' ') := by
  rw [Bool.and_eq_true, Bool.not_eq_true'] at h
  have htab : c ≠ '\t' := by
    rintro rfl
    simp [isPrintable] at h
  simp [isWhite, isBlank, h.2, htab]

/-! ## What may follow a scalar -/

/-- A token may start here: the text is at its end or goes on with neither white space
    nor a comment. -/
def StartsToken (cs : List Char) : Prop :=
  ∀ c, cs.head? = some c → isWhite c = false ∧ c ≠ '#' ∧ c ≠ '\ufeff'

theorem startsToken_nil : StartsToken [] := by
  rintro c ⟨⟩

/-- A character that is neither white space nor the start of a comment may start a token. -/
theorem startsToken_cons {c : Char} {cs : List Char} (hw : isWhite c = false) (hh : c ≠ '#')
    (hb : c ≠ '\ufeff') : StartsToken (c :: cs) := by
  rintro _ ⟨⟩
  exact ⟨hw, hh, hb⟩

/-- The end of a line and the indentation of the next one, left of the margin, in front
    of a token. -/
def LineEnd (margin : Nat) (gap rest : List Char) : Prop :=
  ∃ c, gap = '\n' :: pad c ∧ c < margin ∧ StartsToken rest

theorem isWhite_of_mem_pad {n : Nat} {c : Char} (h : c ∈ pad n) : isWhite c = true := by
  rw [List.eq_of_mem_replicate h]
  decide

namespace LineEnd

variable {margin : Nat} {gap rest : List Char} (m : Mark)

/-- The end of a line and the indentation of the next one are white space. -/
theorem all_isWhite (h : LineEnd margin gap rest) : gap.all isWhite := by
  obtain ⟨c, rfl, -, -⟩ := h
  rw [List.all_cons, Bool.and_eq_true, List.all_eq_true]
  exact ⟨by decide, fun _ => isWhite_of_mem_pad⟩

theorem startsToken (h : LineEnd margin gap rest) : StartsToken rest :=
  h.choose_spec.2.2

theorem any_isBreak (h : LineEnd margin gap rest) : gap.any isBreak := by
  obtain ⟨c, rfl, -, -⟩ := h
  rfl

/-- The next line starts left of the margin. -/
theorem column_lt (h : LineEnd margin gap rest) : (m.after gap).column < margin := by
  obtain ⟨c, rfl, hc, -⟩ := h
  rwa [Mark.column_after_line m isBreak_newline (any_isBreak_pad c), length_pad]

/-- White space is passed up to the token. -/
theorem span_isWhite (h : LineEnd margin gap rest) :
    (⟨gap ++ rest, m⟩ : Cursor).span isWhite = (gap, ⟨rest, m.after gap⟩) :=
  Cursor.span_run m h.all_isWhite fun c hc => (h.startsToken c hc).1

end LineEnd

end ManifestBundle.Yaml
