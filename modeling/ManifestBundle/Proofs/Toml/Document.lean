import ManifestBundle.Proofs.Toml.Quoted
import ManifestBundle.Toml.Document

/-!
# Reading back a document

Reading starts at characters that are not skipped (`isFirst`), which is what keys and values
start with. A key is read back up to the blank or bracket behind it, and a value up to what
ends its line or its place in an array (`Writes`). So lines are read one by one, and their
expressions are those that they have been written for (`Lines.expressions?_eq`). The fuel that
reading has is more than the characters that are left, of which each step takes one or more.
-/

namespace ManifestBundle.Toml

variable {fuel depth : Nat} {cs rest : List Char} {c : Char}

/-! ## What is skipped -/

/-- A character that is not skipped: neither a blank nor a line break, nor the start of a
    comment, nor a byte order mark. -/
def isFirst (c : Char) : Bool :=
  isText c && !isBlank c && c ≠ '#' && c ≠ '\ufeff'

theorem skipBlanks_of_isFirst (h : isFirst c = true) : skipBlanks (c :: cs) = c :: cs := by
  simp only [isFirst, Bool.and_eq_true, Bool.not_eq_true'] at h
  exact List.dropWhile_cons_of_neg (by simp [h.1.1.2])

theorem skipLines?_of_isFirst (h : isFirst c = true) :
    skipLines? (fuel + 1) (c :: cs) = some (c :: cs) := by
  have hc : ¬ (c = '#' ∨ c = '\n' ∨ c = '\r') := by
    rintro (rfl | rfl | rfl) <;> revert h <;> decide
  simp only [skipLines?, skipBlanks_of_isFirst h, Bool.or_eq_true, decide_eq_true_eq, or_assoc,
    if_neg hc]

/-- A line break is skipped, and so are the blanks of the next line. -/
theorem skipLines?_newline {blanks : List Char} (hblanks : blanks.all isBlank)
    (h : isFirst c = true) :
    skipLines? (fuel + 2) ('\n' :: (blanks ++ c :: cs)) = some (c :: cs) := by
  have hblank : isBlank c = false := by simp_all [isFirst]
  have hskip : skipBlanks (blanks ++ c :: cs) = c :: cs :=
    Text.dropWhile_run hblanks (by simpa using hblank)
  have hlater : skipLines? (fuel + 1) (blanks ++ c :: cs) = skipLines? (fuel + 1) (c :: cs) := by
    rw [skipLines?, skipLines?, hskip, skipBlanks_of_isFirst h]
  rw [← skipLines?_of_isFirst h, ← hlater]
  rfl

/-! ## Keys -/

theorem isFirst_of_isWord (h : Text.isWord c = true) : isFirst c = true ∧ c ≠ '[' := by
  have hne : c ≠ '\x7f' ∧ c ≠ ' ' ∧ c ≠ '\t' ∧ c ≠ '#' ∧ c ≠ '\ufeff' ∧ c ≠ '[' := by
    refine ⟨?_, ?_, ?_, ?_, ?_, ?_⟩ <;> rintro rfl <;> revert h <;> decide
  have hle : ' ' ≤ c := by
    simp only [Text.isWord, Text.isDigit, Bool.or_eq_true, Bool.and_eq_true, decide_eq_true_eq,
      beq_iff_eq] at h
    rcases h with (((⟨h, -⟩ | ⟨h, -⟩) | ⟨h, -⟩) | rfl) | rfl
    · exact le_trans (by decide) h
    · exact le_trans (by decide) h
    · exact le_trans (by decide) h
    · decide
    · decide
  simp [isFirst, isText, isBlank, hle, hne]

/-- A key starts with a quote, or with a character of a key without quotes. -/
theorem exists_cons_printKey (s : String) :
    ∃ c cs, printKey s = c :: cs ∧ isFirst c = true ∧ c ≠ '[' := by
  unfold printKey
  simp only [basicText, literalText]
  split_ifs with h
  · rw [Bool.and_eq_true] at h
    obtain ⟨c, cs, hs⟩ := List.exists_cons_of_ne_nil (l := s.toList) (by simpa using h.1)
    exact ⟨c, cs, hs, isFirst_of_isWord (List.all_eq_true.1 h.2 c (hs ▸ List.mem_cons_self))⟩
  all_goals exact ⟨_, _, rfl, by decide, by decide⟩

theorem printKey_append_ne (s : String) (rest cs : List Char) :
    printKey s ++ rest = '[' :: cs → False := by
  obtain ⟨c, more, hkey, -, hc⟩ := exists_cons_printKey s
  rw [hkey]
  rintro ⟨⟩
  exact hc rfl

theorem exists_cons_printPair (key : String) (w : List Char) :
    ∃ c cs, printPair key w = c :: cs ∧ isFirst c = true := by
  obtain ⟨c, cs, hkey, hc, -⟩ := exists_cons_printKey key
  rw [printPair, hkey]
  exact ⟨c, _, rfl, hc⟩

/-- A key is read back from how it is written, if it ends there. -/
theorem keyPart?_printKey {s : String} (hfuel : s.toList.length < fuel)
    (hrest : ∀ c, rest.head? = some c → Text.isWord c = false) :
    keyPart? fuel (printKey s ++ rest) = some (s.toList, rest) := by
  have hquoted {q : Char} {w : List Char} (hq : q = '"' ∨ q = '\'') :
      keyPart? fuel (q :: w) = lineText? fuel (q :: w) := by
    simp [keyPart?, hq]
  unfold printKey
  simp only
  split
  · next h =>
    rw [Bool.and_eq_true] at h
    obtain ⟨c, cs, hs⟩ := List.exists_cons_of_ne_nil (l := s.toList) (by simpa using h.1)
    have hrun := Text.takeWhile_run h.2 hrest
    have hword : Text.isWord c = true := List.all_eq_true.1 h.2 c (hs ▸ List.mem_cons_self)
    have hquote : ¬ (c = '"' ∨ c = '\'') := by
      rintro (rfl | rfl) <;> revert hword <;> decide
    rw [hs] at hrun ⊢
    rw [List.cons_append] at hrun ⊢
    simp only [keyPart?, hrun, Bool.or_eq_true, decide_eq_true_eq, if_neg hquote]
    simp
  · split
    · exact (hquoted (.inl rfl)).trans (lineText?_basicText hfuel)
    · split
      · next h =>
        simp only [Bool.and_eq_true, Bool.not_eq_true'] at h
        have htext : s.toList.all isText := List.all_eq_true.2 fun c hc =>
          isText_iff.2 (by simpa using List.any_eq_false.1 h.1 c hc)
        have hquote : '\'' ∉ s.toList := by simpa using h.2
        exact (hquoted (.inr rfl)).trans (lineText?_literalText htext hquote)
      · exact (hquoted (.inl rfl)).trans (lineText?_basicText hfuel)

/-- A key of one part is read back, and the blanks behind it are skipped. -/
theorem key?_printKey {s : String} (hfuel : s.toList.length + 1 < fuel)
    (hrest : ∀ c, rest.head? = some c → Text.isWord c = false)
    (hdot : (skipBlanks rest).head? ≠ some '.') :
    key? fuel (printKey s ++ rest) = some ([s], skipBlanks rest) := by
  obtain ⟨fuel, rfl⟩ := Nat.exists_eq_add_one_of_ne_zero (Nat.ne_zero_of_lt hfuel)
  have hfront : skipBlanks (printKey s ++ rest) = printKey s ++ rest := by
    obtain ⟨c, cs, hkey, hc, -⟩ := exists_cons_printKey s
    rw [hkey]
    exact skipBlanks_of_isFirst hc
  have hparts : keyParts? (fuel + 1) (printKey s ++ rest) = some ([s], skipBlanks rest) := by
    rw [keyParts?, hfront, keyPart?_printKey (by omega) hrest]
    simp only [Option.bind_eq_bind, Option.bind_some, String.ofList_toList]
    split
    · next h => simp [h] at hdot
    · rfl
  simp [key?, hparts, depthLimit]

/-! ## Values -/

theorem exists_cons_printText (s : String) :
    ∃ c cs, printText s = c :: cs ∧ (c = '"' ∨ c = '\'') := by
  unfold printText
  simp only [basicText, literalText, multilineText, multilineLiteralText]
  split_ifs <;> exact ⟨_, _, rfl, by simp⟩

/-- A text is read back as a value at any depth. -/
theorem value?_printText {s : String} (hfuel : (printText s).length < fuel)
    (hrest : IsBehindText rest) :
    value? depth fuel (printText s ++ rest) = some (.text s, rest) := by
  obtain ⟨fuel, rfl⟩ := Nat.exists_eq_add_one_of_ne_zero (Nat.ne_zero_of_lt hfuel)
  have hread : text? fuel (printText s ++ rest) = some (s.toList, rest) :=
    text?_printText hrest (by have := length_lt_printText s; omega)
  obtain ⟨c, cs, htext, hc⟩ := exists_cons_printText s
  rw [htext] at hread ⊢
  have hvalue : value? depth (fuel + 1) (c :: cs ++ rest) =
      (text? fuel (c :: cs ++ rest)).map fun r => (.text (String.ofList r.1), r.2) := by
    rcases hc with rfl | rfl
    · simp [value?, scalar?]
    · simp [value?, scalar?]
  rw [hvalue, hread, Option.map_some, String.ofList_toList]

/-- The start of a text is the first thing of an array or a line. -/
theorem skipLines?_printText (s : String) :
    skipLines? (fuel + 1) (printText s ++ rest) = some (printText s ++ rest) := by
  obtain ⟨c, cs, htext, hc⟩ := exists_cons_printText s
  rw [htext]
  rcases hc with rfl | rfl <;> exact skipLines?_of_isFirst (by decide)

theorem isBehindText_of_ne (hdouble : c ≠ '"') (hsingle : c ≠ '\'') : IsBehindText (c :: cs) :=
  ⟨by simpa using hdouble, by simpa using hsingle⟩

theorem printText_append_ne (s : String) (rest cs : List Char) :
    printText s ++ rest = ']' :: cs → False := by
  obtain ⟨c, more, htext, hc⟩ := exists_cons_printText s
  rw [htext]
  rintro ⟨⟩
  simp at hc

/-- The closing bracket of an array. -/
theorem items?_bracket (hskip : skipLines? (fuel + 1) cs = some (']' :: rest)) :
    items? depth (fuel + 1) cs = some ([], rest) := by
  rw [items?, hskip]
  rfl

/-- An item of an array with a comma behind it. -/
theorem items?_comma {s : String}
    (hskip : skipLines? (fuel + 1) cs = some (printText s ++ ',' :: rest))
    (hfuel : (printText s).length < fuel) :
    items? depth (fuel + 1) cs = (items? depth fuel rest).map (Prod.map (.text s :: ·) id) := by
  have hvalue : value? depth fuel (printText s ++ ',' :: rest) = some (.text s, ',' :: rest) :=
    value?_printText hfuel (isBehindText_of_ne (by decide) (by decide))
  have hcomma : skipLines? (fuel + 1) (',' :: rest) = some (',' :: rest) :=
    skipLines?_of_isFirst (by decide)
  have hne := printText_append_ne s (',' :: rest)
  rw [items?, hskip]
  simp only [Option.bind_eq_bind, Option.bind_some, hvalue, hcomma]
  cases items? depth fuel rest <;> rfl

/-- An item of an array with the closing bracket behind it. -/
theorem items?_last {s : String}
    (hskip : skipLines? (fuel + 1) cs = some (printText s ++ ']' :: rest))
    (hfuel : (printText s).length < fuel) :
    items? depth (fuel + 1) cs = some ([.text s], rest) := by
  have hvalue : value? depth fuel (printText s ++ ']' :: rest) = some (.text s, ']' :: rest) :=
    value?_printText hfuel (isBehindText_of_ne (by decide) (by decide))
  have hbracket : skipLines? (fuel + 1) (']' :: rest) = some (']' :: rest) :=
    skipLines?_of_isFirst (by decide)
  have hne := printText_append_ne s (']' :: rest)
  rw [items?, hskip]
  simp only [Option.bind_eq_bind, Option.bind_some, hvalue, hbracket]
  rfl

/-- An item of an array on a line of its own. -/
def itemLine (s : String) : List Char :=
  '\n' :: ' ' :: ' ' :: ' ' :: ' ' :: printText s ++ [',']

/-- The items of an array that has each on a line of its own. -/
theorem items?_lines {texts : List String} (hfuel : (texts.flatMap itemLine).length + 2 < fuel) :
    items? depth fuel (texts.flatMap itemLine ++ '\n' :: ']' :: rest) =
      some (texts.map .text, rest) := by
  induction texts generalizing fuel with
  | nil =>
    obtain ⟨fuel, rfl⟩ := Nat.exists_eq_add_of_le' hfuel
    have hskip : skipLines? (fuel + 3) ('\n' :: ([] ++ ']' :: rest)) = some (']' :: rest) :=
      skipLines?_newline rfl (by decide)
    exact items?_bracket hskip
  | cons s texts ih =>
    have hlength : (itemLine s).length = (printText s).length + 6 := by
      simp only [itemLine, List.length_append, List.length_cons, List.length_nil]
    rw [List.flatMap_cons, List.length_append, hlength] at hfuel
    obtain ⟨fuel, rfl⟩ : ∃ n, fuel = n + 2 := ⟨fuel - 2, by omega⟩
    rw [List.flatMap_cons, List.append_assoc, List.map_cons]
    generalize hmore : texts.flatMap itemLine ++ '\n' :: ']' :: rest = more
    have hskip : skipLines? (fuel + 2) (itemLine s ++ more) =
        some (printText s ++ ',' :: more) := by
      obtain ⟨c, cs, htext, hc⟩ := exists_cons_printText s
      have hblanks : (List.replicate 4 ' ').all isBlank := by decide
      rw [itemLine, htext, List.append_assoc]
      rcases hc with rfl | rfl <;>
        exact skipLines?_newline hblanks (by decide)
    rw [items?_comma hskip (by omega), ← hmore, ih (by omega)]
    rfl

/-- An array of texts is read back as a value. -/
theorem value?_printTexts {texts : List String} (hdepth : depth + 1 < depthLimit)
    (hfuel : (printTexts texts).length < fuel) :
    value? depth fuel (printTexts texts ++ rest) = some (.array (texts.map .text), rest) := by
  obtain ⟨fuel, rfl⟩ := Nat.exists_eq_add_one_of_ne_zero (Nat.ne_zero_of_lt hfuel)
  have harray {cs : List Char} {vs : List Value}
      (h : items? (depth + 1) fuel cs = some (vs, rest)) :
      value? depth (fuel + 1) ('[' :: cs) = some (.array vs, rest) := by
    simp only [value?, if_pos hdepth, h]
    rfl
  cases texts with
  | nil =>
    obtain ⟨fuel, rfl⟩ : ∃ n, fuel = n + 1 := ⟨fuel - 1, by simp [printTexts] at hfuel; omega⟩
    exact harray (items?_bracket (skipLines?_of_isFirst (by decide)))
  | cons s texts =>
    cases texts with
    | nil =>
      simp only [printTexts, List.length_append, List.length_cons, List.length_nil] at hfuel
      obtain ⟨fuel, rfl⟩ : ∃ n, fuel = n + 1 := ⟨fuel - 1, by omega⟩
      rw [printTexts, List.append_assoc]
      exact harray (items?_last (skipLines?_printText s) (by omega))
    | cons t texts =>
      have hprint : printTexts (s :: t :: texts) =
          '[' :: (s :: t :: texts).flatMap itemLine ++ ['\n', ']'] := rfl
      rw [hprint] at hfuel ⊢
      simp only [List.length_append, List.length_cons, List.length_nil] at hfuel
      rw [List.append_assoc]
      exact harray (items?_lines (by omega))

/-! ## Expressions -/

/-- How a value is written: it is read back, whatever follows it. -/
structure Writes (w : List Char) (v : Value) : Prop where
  starts : ∃ c cs, w = c :: cs ∧ isFirst c = true
  value?_eq {fuel : Nat} {rest : List Char} : w.length < fuel → IsBehindText rest →
    value? 0 fuel (w ++ rest) = some (v, rest)

theorem writes_printText (s : String) : Writes (printText s) (.text s) where
  starts := by
    obtain ⟨c, cs, htext, hc⟩ := exists_cons_printText s
    exact ⟨c, cs, htext, by rcases hc with rfl | rfl <;> decide⟩
  value?_eq := value?_printText

theorem writes_printTexts (texts : List String) :
    Writes (printTexts texts) (.array (texts.map .text)) where
  starts := by
    unfold printTexts
    split <;> exact ⟨_, _, rfl, by decide⟩
  value?_eq hfuel _ := value?_printTexts (by decide) hfuel

theorem writes_true : Writes ['t', 'r', 'u', 'e'] (.bool true) where
  starts := ⟨_, _, rfl, by decide⟩
  value?_eq {fuel rest} hfuel _ := by
    obtain ⟨fuel, rfl⟩ := Nat.exists_eq_add_one_of_ne_zero (Nat.ne_zero_of_lt hfuel)
    rfl

theorem writes_false : Writes ['f', 'a', 'l', 's', 'e'] (.bool false) where
  starts := ⟨_, _, rfl, by decide⟩
  value?_eq {fuel rest} hfuel _ := by
    obtain ⟨fuel, rfl⟩ := Nat.exists_eq_add_one_of_ne_zero (Nat.ne_zero_of_lt hfuel)
    rfl

theorem lineEnd?_newline : lineEnd? ('\n' :: rest) = some rest :=
  rfl

/-- The line of a key and its value. -/
theorem expression?_printPair {key : String} {w : List Char} {v : Value} (hw : Writes w v)
    (hfuel : (printPair key w).length < fuel) :
    expression? fuel (printPair key w ++ rest) = some (.pair [key] v, rest) := by
  have hsplit : printPair key w ++ rest =
      printKey key ++ ' ' :: '=' :: ' ' :: (w ++ '\n' :: rest) := by
    simp [printPair]
  have hlength : (printPair key w).length = (printKey key).length + w.length + 4 := by
    simp only [printPair, List.length_append, List.length_cons, List.length_nil]
    omega
  have hkey : key? fuel (printKey key ++ ' ' :: '=' :: ' ' :: (w ++ '\n' :: rest)) =
      some ([key], '=' :: ' ' :: (w ++ '\n' :: rest)) := by
    have hle := length_le_printKey key
    have hblank : ∀ c, some ' ' = some c → Text.isWord c = false := by
      rintro _ ⟨⟩
      decide
    exact key?_printKey (by omega) hblank (by simp [skipBlanks, isBlank])
  have hblanks : skipBlanks (' ' :: (w ++ '\n' :: rest)) = w ++ '\n' :: rest := by
    obtain ⟨c, cs, rfl, hc⟩ := hw.starts
    exact skipBlanks_of_isFirst hc
  have hvalue : value? 0 fuel (w ++ '\n' :: rest) = some (v, '\n' :: rest) :=
    hw.value?_eq (by omega) (isBehindText_of_ne (by decide) (by decide))
  rw [hsplit, expression?]
  · simp only [hkey, Option.bind_eq_bind, Option.bind_some, mark?, if_true, hblanks, hvalue,
      lineEnd?_newline]
    rfl
  · exact fun cs => printKey_append_ne key _ _
  · exact fun cs => printKey_append_ne key _ _

/-- The header of a table on a line of its own. -/
theorem expression?_header {key : String} (hfuel : (printKey key).length + 1 < fuel) :
    expression? fuel ('[' :: (printKey key ++ ']' :: '\n' :: rest)) =
      some (.header [key], rest) := by
  have hkey : key? fuel (printKey key ++ ']' :: '\n' :: rest) =
      some ([key], ']' :: '\n' :: rest) := by
    have hle := length_le_printKey key
    have hbracket : ∀ c, some ']' = some c → Text.isWord c = false := by
      rintro _ ⟨⟩
      decide
    exact key?_printKey (by omega) hbracket (by simp [skipBlanks, isBlank])
  rw [expression?]
  · simp only [hkey, Option.bind_eq_bind, Option.bind_some, mark?, if_true, lineEnd?_newline]
    rfl
  · exact fun cs => printKey_append_ne key _ _

/-! ## Documents -/

/-- The characters are lines that stand for the expressions. -/
inductive Lines : List Char → List Expression → Prop
  | nil : Lines [] []
  | pair {key : String} {w cs : List Char} {v : Value} {es : List Expression} (writes : Writes w v)
      (more : Lines cs es) : Lines (printPair key w ++ cs) (.pair [key] v :: es)
  /-- A header, behind an empty line. -/
  | header {key : String} {cs : List Char} {es : List Expression} (more : Lines cs es) :
      Lines ('\n' :: '[' :: (printKey key ++ ']' :: '\n' :: cs)) (.header [key] :: es)

theorem Lines.head?_ne {es : List Expression} (h : Lines cs es) : cs.head? ≠ some '\ufeff' := by
  cases h with
  | nil => nofun
  | @pair key w cs v es _ _ =>
    obtain ⟨c, more, hpair, hc⟩ := exists_cons_printPair key w
    rw [hpair]
    rintro ⟨⟩
    revert hc
    decide
  | header _ =>
    rintro ⟨⟩

/-- Lines are read back. -/
theorem Lines.expressions?_eq {es : List Expression} (h : Lines cs es) (hfuel : cs.length < fuel) :
    expressions? fuel cs = some es := by
  have hcons {fuel : Nat} {cs w rest : List Char} {c : Char} {e : Expression} {es : List Expression}
      (hskip : skipLines? (fuel + 1) cs = some (c :: w))
      (he : expression? (fuel + 1) (c :: w) = some (e, rest))
      (hes : expressions? fuel rest = some es) : expressions? (fuel + 1) cs = some (e :: es) := by
    simp [expressions?, hskip, he, hes]
  induction h generalizing fuel with
  | nil =>
    obtain ⟨fuel, rfl⟩ := Nat.exists_eq_add_one_of_ne_zero (Nat.ne_zero_of_lt hfuel)
    rfl
  | @pair key w cs v es writes _ ih =>
    obtain ⟨fuel, rfl⟩ := Nat.exists_eq_add_one_of_ne_zero (Nat.ne_zero_of_lt hfuel)
    rw [List.length_append] at hfuel
    have he : expression? (fuel + 1) (printPair key w ++ cs) = some (.pair [key] v, cs) :=
      expression?_printPair writes (by omega)
    obtain ⟨c, more, hpair, hc⟩ := exists_cons_printPair key w
    rw [hpair] at hfuel he ⊢
    rw [List.length_cons] at hfuel
    exact hcons (skipLines?_of_isFirst hc) he (ih (by omega))
  | @header key cs es _ ih =>
    simp only [List.length_cons, List.length_append] at hfuel
    obtain ⟨fuel, rfl⟩ : ∃ n, fuel = n + 2 := ⟨fuel - 2, by omega⟩
    have hskip {cs : List Char} :
        skipLines? (fuel + 2) ('\n' :: ([] ++ '[' :: cs)) = some ('[' :: cs) :=
      skipLines?_newline rfl (by decide)
    exact hcons hskip (expression?_header (by omega)) (ih (by omega))

end ManifestBundle.Toml
