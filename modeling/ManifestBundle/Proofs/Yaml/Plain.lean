import ManifestBundle.Proofs.Yaml.Cursor

/-!
# Reading back a plain scalar

A text in the form of a plain scalar holds no white space but single spaces within its
line, so its words and gaps are put together again as they were (`plainRest_append`).
It is read up to the colon behind a key, or to the end of its line if the next line
stands to the left of the margin (`PlainEnd`).
-/

namespace ManifestBundle.Yaml

/-! ## What may follow a plain scalar -/

/-- What may follow a plain scalar: the colon behind a key, or the end of the line. -/
def PlainEnd (margin : Nat) (gap rest : List Char) : Prop :=
  (gap = [] ∧ ∃ w cs, rest = ':' :: w :: cs ∧ isWhite w) ∨ LineEnd margin gap rest

theorem LineEnd.hasTabBefore {margin : Nat} {gap rest : List Char}
    (h : LineEnd margin gap rest) (n : Nat) : Yaml.hasTabBefore n gap = false := by
  have hpad (column c : Nat) : hasTabBefore.inLines n column (pad c) = false := by
    induction c generalizing column with
    | zero => rfl
    | succ c ih =>
      rw [pad_succ, hasTabBefore.inLines]
      simp [not_isBreak_space, ih]
  obtain ⟨c, rfl, -, -⟩ := h
  have hdrop : ('\n' :: pad c).dropWhile isBlank = '\n' :: pad c := rfl
  rw [Yaml.hasTabBefore, hdrop, hasTabBefore.inLines]
  simp [isBreak_newline, hpad]

/-! ## Words and gaps -/

/-- A part of a plain scalar: printable characters of one line, which no colon or number
    sign ends and whose last one is no space. -/
structure PlainPart (cs : List Char) : Prop where
  printable : cs.all fun c => isPrintable c && !isBreak c
  last : cs.getLast? ≠ some ' '
  noIndicator : hasIndicator cs = false

namespace PlainPart

variable {c : Char} {cs ds : List Char}

theorem tail (h : PlainPart (c :: cs)) : PlainPart cs where
  printable := (Bool.and_eq_true _ _ ▸ h.printable : _ ∧ _).2
  last := by
    cases cs with
    | nil => simp
    | cons d ds => simpa using h.last
  noIndicator := (Bool.or_eq_false_iff.1 h.noIndicator).2

theorem right (h : PlainPart (cs ++ ds)) : PlainPart ds := by
  induction cs with
  | nil => exact h
  | cons c cs ih => exact ih h.tail

theorem isWhite_head (h : PlainPart (c :: cs)) : isWhite c = decide (c = ' ') :=
  isWhite_of_isPrintable (List.all_eq_true.1 h.printable c List.mem_cons_self)

/-- A colon has a character behind it that is no space. -/
theorem atWhite_of_colon (h : PlainPart (':' :: cs)) (tail : List Char) :
    atWhite (cs ++ tail) = false := by
  have hcolon : atWhite cs = false := by
    have := h.noIndicator
    simp only [hasIndicator, Bool.or_eq_false_iff, decide_true, Bool.true_and] at this
    exact this.1.1
  cases cs with
  | nil => simp [atWhite] at hcolon
  | cons d ds => exact hcolon

/-- A space has a character behind it that starts no comment. -/
theorem head_ne_of_space (h : PlainPart (' ' :: cs)) : cs.head? ≠ some '#' := by
  have := h.noIndicator
  simp only [hasIndicator, Bool.or_eq_false_iff] at this
  simpa using this.1.2

/-- A word ends at the next space or where the part does. -/
theorem word?_append (h : PlainPart cs) {tail : List Char} (ht : atWordEnd false tail) :
    word? false (cs ++ tail) = some (cs.takeWhile (· ≠ ' ')) := by
  induction cs with
  | nil =>
    cases tail with
    | nil => rfl
    | cons t tail =>
      by_cases hw : isWhite t
      · simp [word?, hw]
      · simp [word?, hw, ht]
  | cons c cs ih =>
    rw [List.cons_append, word?, h.isWhite_head]
    by_cases hc : c = ' '
    · simp [hc]
    · -- A colon ends the word only in front of white space, and none stands there.
      have hend : atWordEnd false (c :: (cs ++ tail)) = false := by
        by_cases hcolon : c = ':'
        · subst hcolon
          simp [atWordEnd, h.isWhite_head, h.atWhite_of_colon]
        · simp [atWordEnd, h.isWhite_head, hc, hcolon]
      simp [hc, hend, ih h.tail]

/-- A gap is spaces in front of a word that starts no comment. -/
theorem exists_gap (h : PlainPart (' ' :: cs)) :
    ∃ n c ds, ' ' :: cs = pad (n + 1) ++ c :: ds ∧ isWhite c = false ∧ c ≠ '#' ∧
      PlainPart (c :: ds) := by
  induction cs with
  | nil => exact absurd rfl h.last
  | cons c cs ih =>
    by_cases hc : c = ' '
    · subst hc
      obtain ⟨n, d, ds, hcs, hd⟩ := ih h.tail
      exact ⟨n + 1, d, ds, by rw [hcs, pad_succ]; rfl, hd⟩
    · refine ⟨0, c, cs, rfl, ?_, ?_, h.tail⟩
      · simp [h.tail.isWhite_head, hc]
      · simpa using h.head_ne_of_space

/-- A part that starts with no space starts with a word. -/
theorem exists_word (h : PlainPart (c :: cs)) (hc : isWhite c = false) {tail : List Char}
    (ht : atWordEnd false tail) :
    ∃ w ds, c :: cs = c :: w ++ ds ∧ word? false (c :: cs ++ tail) = some (c :: w) ∧
      (c :: w).any isBreak = false ∧ (ds = [] ∨ ds.head? = some ' ') := by
  have hne : c ≠ ' ' := by
    rintro rfl
    exact absurd hc (by decide)
  have htake : (c :: cs).takeWhile (· ≠ ' ') = c :: cs.takeWhile (· ≠ ' ') := by simp [hne]
  refine ⟨cs.takeWhile (· ≠ ' '), cs.dropWhile (· ≠ ' '), ?_, ?_, ?_, ?_⟩
  · rw [List.cons_append, List.takeWhile_append_dropWhile]
  · rw [h.word?_append ht, htake]
  · rw [← htake, List.any_eq_false]
    intro d hd
    have := List.all_eq_true.1 h.printable d ((List.takeWhile_sublist _).subset hd)
    simp_all
  · cases hd : cs.dropWhile (· ≠ ' ') with
    | nil => exact .inl rfl
    | cons d ds =>
      have := List.head?_dropWhile_not (· ≠ ' ') cs
      simp_all

end PlainPart

theorem hasTabBefore_pad (margin n : Nat) : hasTabBefore margin (pad n) = false := by
  have hdrop : (pad n).dropWhile isBlank = [] := by
    simp [pad, isBlank]
  rw [hasTabBefore, hdrop]
  rfl

namespace PlainEnd

variable {margin : Nat} {gap rest : List Char} (m : Mark)

theorem atWordEnd (h : PlainEnd margin gap rest) : atWordEnd false (gap ++ rest) := by
  rcases h with ⟨rfl, w, cs, rfl, hw⟩ | ⟨c, rfl, -⟩
  · simp [Yaml.atWordEnd, atWhite, hw]
  · rfl

/-- No word follows. -/
theorem plainRest (h : PlainEnd margin gap rest) (fuel : Nat) :
    plainRest false margin (fuel + 1) ⟨gap ++ rest, m⟩ =
      some ([], ⟨rest, m.after gap⟩, gap.any isBreak) := by
  rcases h with ⟨rfl, w, cs, rfl, -⟩ | h
  · rfl
  · have hcolumn := h.column_lt m
    rw [Yaml.plainRest, h.span_isWhite m]
    simp [h.hasTabBefore, Cursor.column, hcolumn]

end PlainEnd

/-- A gap and what follows it are read back, up to the end. -/
theorem plainRest_append {margin : Nat} {gap rest : List Char} (hend : PlainEnd margin gap rest)
    {fuel : Nat} {cs : List Char} {m : Mark} (hf : cs.length < fuel) (h : PlainPart cs)
    (hs : cs = [] ∨ cs.head? = some ' ') (hm : margin ≤ m.column) :
    plainRest false margin fuel ⟨cs ++ (gap ++ rest), m⟩ =
      some (cs, ⟨rest, m.after (cs ++ gap)⟩, gap.any isBreak) := by
  induction fuel generalizing cs m with
  | zero => omega
  | succ fuel ih =>
    rcases hs with rfl | hs
    · exact hend.plainRest m fuel
    · obtain ⟨cs, rfl⟩ := List.head?_eq_some_iff.1 hs
      obtain ⟨n, c, ds, hcs, hw, hc, hpart⟩ := h.exists_gap
      rw [hcs] at hf ⊢
      -- The spaces, the word behind them, and the next gap.
      have hspan : (⟨pad (n + 1) ++ (c :: ds ++ (gap ++ rest)), m⟩ : Cursor).span isWhite =
          (pad (n + 1), ⟨c :: ds ++ (gap ++ rest), m.after (pad (n + 1))⟩) := by
        refine Cursor.span_run m (List.all_eq_true.2 fun _ => isWhite_of_mem_pad) ?_
        rintro _ ⟨⟩
        exact hw
      have hcolumn : (m.after (pad (n + 1))).column = m.column + (n + 1) := by
        rw [Mark.column_after_of_no_break m (any_isBreak_pad _), length_pad]
      -- The word behind the spaces, and what is left of the text behind the word.
      obtain ⟨w, left, hsplit, hword, hbreak, hleft⟩ := hpart.exists_word hw hend.atWordEnd
      have hbehind : margin ≤ ((m.after (pad (n + 1))).after (c :: w)).column := by
        rw [Mark.column_after_of_no_break _ hbreak, hcolumn]
        omega
      have hlen := congrArg List.length hsplit
      simp only [List.length_append, List.length_cons, length_pad] at hf hlen
      have hright : PlainPart (c :: w ++ left) := hsplit ▸ hpart
      have hrest := ih (by omega) hright.right hleft hbehind
      have hskip : (⟨c :: ds ++ (gap ++ rest), m.after (pad (n + 1))⟩ : Cursor).skip
          (c :: w).length =
          ⟨left ++ (gap ++ rest), (m.after (pad (n + 1))).after (c :: w)⟩ := by
        rw [hsplit, List.append_assoc, Cursor.skip_append]
      rw [List.append_assoc, plainRest, hspan]
      simp only [hasTabBefore_pad, Cursor.atDocumentMark, Cursor.column, hcolumn, hword, hskip,
        hrest, foldGap_of_no_break (any_isBreak_pad _)]
      -- Nothing of what ends a plain scalar stands behind the spaces.
      have hgo : ((pad (n + 1)).isEmpty || !false && decide (m.column + (n + 1) < margin) ||
          m.column + (n + 1) == 0 && atDocumentMark (c :: ds ++ (gap ++ rest)) ||
          (c :: ds ++ (gap ++ rest)).head? == some '#') = false := by
        have hmargin : ¬ m.column + (n + 1) < margin := by omega
        simp [pad_succ, hmargin, hc]
      rw [hgo, if_neg Bool.false_ne_true, if_neg Bool.false_ne_true]
      simp [hsplit]

/-- A text in the form of a plain scalar is read back. -/
theorem plain?_append {margin : Nat} {gap rest : List Char} (hend : PlainEnd margin gap rest)
    {fuel : Nat} {cs : List Char} {m : Mark} (hf : cs.length ≤ fuel) (h : PlainPart cs)
    (hs : cs.head?.any fun c => !isWhite c) (hm : margin ≤ m.column + 1) :
    plain? false margin fuel ⟨cs ++ (gap ++ rest), m⟩ =
      some (cs, ⟨rest, m.after (cs ++ gap)⟩, gap.any isBreak) := by
  cases cs with
  | nil => simp at hs
  | cons c cs =>
    have hw : isWhite c = false := by simpa using hs
    obtain ⟨w, left, hsplit, hword, hbreak, hleft⟩ := h.exists_word hw hend.atWordEnd
    have hskip : (⟨c :: cs ++ (gap ++ rest), m⟩ : Cursor).skip (c :: w).length =
        ⟨left ++ (gap ++ rest), m.after (c :: w)⟩ := by
      rw [hsplit, List.append_assoc, Cursor.skip_append]
    have hlen := congrArg List.length hsplit
    simp only [List.length_append, List.length_cons] at hf hlen
    have hcolumn : margin ≤ (m.after (c :: w)).column := by
      rw [Mark.column_after_of_no_break _ hbreak, List.length_cons]
      omega
    have hshort : left.length < fuel := by omega
    have hright : PlainPart (c :: w ++ left) := hsplit ▸ h
    have hrest := plainRest_append hend hshort hright.right hleft hcolumn
    rw [plain?]
    simp only [hword, hskip, hrest, Option.bind_eq_bind, Option.bind_some, Option.pure_def]
    simp [hsplit]

end ManifestBundle.Yaml
