import ManifestBundle.Proofs.Text.Digits
import ManifestBundle.Toml.Printer
import Mathlib.Algebra.Order.Ring.Nat
import Mathlib.Data.Char

/-!
# Reading back quoted texts

A text is read back from each of the forms that it is written in. Between double quotes each
character is one that stands for itself or an escape (`BasicForm`), and is read as such,
whatever follows it. Over several lines the quotes that end a text are three in a row: up to
two may stand in the text right in front of them, and nowhere in the text is there a third
(`closing?_of_lt`, `closing?_end`). What follows a text must not be a quote, or it would be
taken for one of those that open or close it.
-/

namespace ManifestBundle.Toml

variable {fuel : Nat} {c : Char} {cs rest : List Char}

/-! ## Characters -/

/-- A character that is no control character stands for itself, or breaks the line. -/
theorem isText_iff : isText c = true ↔ isControl c = false ∧ c ≠ '\n' := by
  by_cases htab : c = '\t'
  · subst htab
    decide
  · by_cases hnewline : c = '\n'
    · subst hnewline
      decide
    · simp [isText, isControl, htab, hnewline]

/-- A line without control characters stands between quotes as it is. -/
theorem all_isText (hcontrol : cs.any isControl = false) (hnewline : cs.contains '\n' = false) :
    cs.all isText := by
  rw [List.all_eq_true]
  intro c hc
  refine isText_iff.2 ⟨by simpa using List.any_eq_false.1 hcontrol c hc, ?_⟩
  rintro rfl
  rw [List.contains_iff_mem.2 hc] at hnewline
  nomatch hnewline

/-- The code point of a control character has no more than four digits. -/
theorem lt_of_isControl (h : isControl c = true) : c.toNat < 16 ^ 4 := by
  have hspace : ' '.toNat = 32 := rfl
  simp only [isControl, Bool.or_eq_true, Bool.and_eq_true, decide_eq_true_eq] at h
  rcases h with ⟨⟨h, -⟩, -⟩ | rfl
  · have : c.toNat < ' '.toNat := h
    omega
  · decide

/-- The two ways to write a character between double quotes. -/
inductive BasicForm : Char → List Char → Prop
  | plain {c : Char} (isText : isText c = true) (notQuote : c ≠ '"') (notBackslash : c ≠ '\\') :
      BasicForm c [c]
  /-- An escape, which is not one at the end of a line. -/
  | escape {c letter : Char} {digits : List Char} (isText : isText letter = true)
      (notBlank : isBlank letter = false)
      (escape?_eq : ∀ rest, escape? (letter :: (digits ++ rest)) = some (c, rest)) :
      BasicForm c ('\\' :: letter :: digits)

/-- A character with an escape of its own may be written by it. -/
theorem basicForm_of_mem {letter : Char} (h : (letter, c) ∈ escapes) :
    BasicForm c ['\\', letter] := by
  have hlookup : ∀ e ∈ escapes, escapes.lookup e.1 = some e.2 := by decide
  have htext : ∀ e ∈ escapes, isText e.1 = true := by decide
  have hblank : ∀ e ∈ escapes, isBlank e.1 = false := by decide
  refine .escape (htext _ h) (hblank _ h) fun rest => ?_
  rw [List.nil_append, escape?, hlookup _ h]

/-- Every character is written as itself or as an escape. -/
theorem basicForm (c : Char) : BasicForm c (basicChar c) := by
  unfold basicChar
  split
  · next letter d h =>
    have hd : d = c := by simpa using List.find?_some h
    subst hd
    exact basicForm_of_mem (List.mem_of_find?_eq_some h)
  · next h =>
    have hescapes : ∀ e ∈ escapes, e.2 ≠ c := by simpa using List.find?_eq_none.1 h
    split
    · next hcontrol =>
      refine .escape (by decide) (by decide) fun rest => ?_
      have hlookup : escapes.lookup 'u' = none := by decide
      have hlength : ((Text.paddedHex 4 c.toNat).map Char.toUpper).length = 4 := by
        rw [List.length_map, Text.length_paddedHex (by decide) (lt_of_isControl hcontrol)]
      simp only [escape?, hlookup, if_true]
      simp [List.take_left' hlength, List.drop_left' hlength, hlength, Text.charOfHex?_paddedHex]
    · next hcontrol =>
      refine .plain (isText_iff.2 ⟨by simpa using hcontrol, ?_⟩) ?_ ?_
      · exact fun h => hescapes ('n', '\n') (by decide) h.symm
      · exact fun h => hescapes ('"', '"') (by decide) h.symm
      · exact fun h => hescapes ('\\', '\\') (by decide) h.symm

/-- No character is written in a way that starts with a quote or a line break. -/
theorem BasicForm.exists_cons {w : List Char} (h : BasicForm c w) :
    ∃ d ds, w = d :: ds ∧ d ≠ '"' ∧ isText d = true := by
  cases h with
  | plain htext hquote _ => exact ⟨_, _, rfl, hquote, htext⟩
  | escape _ _ _ => exact ⟨_, _, rfl, by decide, by decide⟩

/-! ## Between double quotes -/

theorem BasicForm.basicRest? {w : List Char} (h : BasicForm c w) :
    basicRest? (fuel + 1) (w ++ rest) =
      (basicRest? fuel rest).map (Prod.map (c :: ·) id) := by
  cases h with
  | plain htext hquote hbackslash =>
    simp only [List.cons_append, List.nil_append, Toml.basicRest?, if_neg hquote,
      if_neg hbackslash, if_pos htext]
    cases Toml.basicRest? fuel rest <;> rfl
  | escape _ _ hescape =>
    have hquote : '\\' ≠ '"' := by decide
    simp only [List.cons_append, Toml.basicRest?, if_neg hquote, if_true, hescape,
      Option.bind_eq_bind, Option.bind_some]
    cases Toml.basicRest? fuel rest <;> rfl

/-- Between double quotes characters are read back up to the closing quote. -/
theorem basicRest?_flatMap (hfuel : cs.length < fuel) :
    basicRest? fuel (cs.flatMap basicChar ++ '"' :: rest) = some (cs, rest) := by
  induction cs generalizing fuel with
  | nil =>
    cases fuel with
    | zero => nomatch hfuel
    | succ fuel => rfl
  | cons c cs ih =>
    cases fuel with
    | zero => nomatch hfuel
    | succ fuel =>
      rw [List.flatMap_cons, List.append_assoc, (basicForm c).basicRest?,
        ih (Nat.lt_of_succ_lt_succ hfuel)]
      rfl

/-! ## Between single quotes -/

/-- Between single quotes a text is read as it is, up to the closing quote. -/
theorem literalRest?_append (htext : cs.all isText) (hquote : '\'' ∉ cs) :
    literalRest? (cs ++ '\'' :: rest) = some (cs, rest) := by
  induction cs with
  | nil => rfl
  | cons c cs ih =>
    rw [List.all_cons, Bool.and_eq_true] at htext
    rw [List.mem_cons, not_or] at hquote
    rw [List.cons_append, literalRest?, if_neg (Ne.symm hquote.1), if_pos htext.1,
      ih htext.2 hquote.2]
    rfl

/-! ## In one line -/

theorem lineText?_basicText (hfuel : cs.length < fuel) :
    lineText? fuel (basicText cs ++ rest) = some (cs, rest) := by
  rw [basicText, List.append_assoc]
  exact basicRest?_flatMap hfuel

theorem lineText?_literalText (htext : cs.all isText) (hquote : '\'' ∉ cs) :
    lineText? fuel (literalText cs ++ rest) = some (cs, rest) := by
  rw [literalText, List.append_assoc]
  exact literalRest?_append htext hquote

/-! ## Over several lines -/

variable {q : Char}

/-- Fewer than three quotes close nothing. -/
theorem closing?_of_lt {k : Nat} {d : Char} (hk : k < 3) (hd : d ≠ q) :
    closing? q (List.replicate k q ++ d :: cs) = none := by
  have hrun : (List.replicate k q).all (· = q) := by simp
  have htake : (List.replicate k q ++ d :: cs).takeWhile (· = q) = List.replicate k q :=
    Text.takeWhile_run hrun (by simp [hd])
  rw [closing?, htake, List.length_replicate, if_pos hk]

/-- The last three quotes close the text, and those in front of them belong to it. -/
theorem closing?_end {k : Nat} (hk : k ≤ 2) (hrest : rest.head? ≠ some q) :
    closing? q (List.replicate k q ++ (q :: q :: q :: rest)) = some (List.replicate k q, rest) := by
  have hrun : (List.replicate (k + 3) q).all (· = q) := by simp
  have htake : (List.replicate (k + 3) q ++ rest).takeWhile (· = q) = List.replicate (k + 3) q := by
    refine Text.takeWhile_run hrun fun c hc => decide_eq_false ?_
    rintro rfl
    exact hrest hc
  have hsplit : List.replicate k q ++ (q :: q :: q :: rest) = List.replicate (k + 3) q ++ rest := by
    rw [List.replicate_add, List.append_assoc]
    rfl
  rw [closing?, hsplit, htake, List.length_replicate, if_neg (by omega), Nat.add_sub_cancel,
    Nat.min_eq_left hk]
  exact congrArg some (congrArg _ (List.drop_left' List.length_replicate))

theorem newline?_of_isText (h : isText c = true) : newline? (c :: cs) = none := by
  unfold newline?
  split
  · next heq =>
    obtain rfl : c = '\n' := (List.cons.inj heq).1
    nomatch h
  · next heq =>
    obtain rfl : c = '\r' := (List.cons.inj heq).1
    nomatch h
  · rfl

theorem multilineRest?_of_closing? {done : List Char × List Char}
    (h : closing? q cs = some done) : multilineRest? q (fuel + 1) cs = some done := by
  cases cs with
  | nil => nomatch h
  | cons c cs => rw [multilineRest?, h]

/-- A line break stands for itself. -/
theorem multilineRest?_newline (hq : '\n' ≠ q) :
    multilineRest? q (fuel + 1) ('\n' :: cs) =
      (multilineRest? q fuel cs).map (Prod.map ('\n' :: ·) id) := by
  have hclosing : closing? q ('\n' :: cs) = none :=
    closing?_of_lt (k := 0) (by decide) hq
  simp only [multilineRest?, hclosing, newline?]
  cases multilineRest? q fuel cs <;> rfl

/-- A character stands for itself if it is no quote that closes the text. -/
theorem multilineRest?_plain (hclosing : closing? q (c :: cs) = none) (htext : isText c = true)
    (hbackslash : ¬ (q = '"' ∧ c = '\\')) :
    multilineRest? q (fuel + 1) (c :: cs) =
      (multilineRest? q fuel cs).map (Prod.map (c :: ·) id) := by
  simp only [multilineRest?, hclosing, newline?_of_isText htext, Bool.and_eq_true,
    decide_eq_true_eq, if_neg hbackslash, if_pos htext]
  cases multilineRest? q fuel cs <;> rfl

theorem BasicForm.multilineRest? {w : List Char} (h : BasicForm c w) :
    multilineRest? '"' (fuel + 1) (w ++ rest) =
      (multilineRest? '"' fuel rest).map (Prod.map (c :: ·) id) := by
  cases h with
  | plain htext hquote hbackslash =>
    exact multilineRest?_plain (closing?_of_lt (k := 0) (by decide) hquote) htext
      fun h => hbackslash h.2
  | @escape letter digits htext hblank hescape =>
    have hclosing : closing? '"' ('\\' :: letter :: (digits ++ rest)) = none :=
      closing?_of_lt (k := 0) (by decide) (by decide)
    have hbackslash : newline? ('\\' :: letter :: (digits ++ rest)) = none :=
      newline?_of_isText (by decide)
    have hletter : newline? (letter :: (digits ++ rest)) = none := newline?_of_isText htext
    simp only [List.cons_append, Toml.multilineRest?, hclosing, hbackslash, skipBlanks,
      List.dropWhile_cons, hblank, Bool.false_eq_true, if_false, hletter, hescape, decide_true,
      Bool.and_self, if_true, Option.bind_eq_bind, Option.bind_some]
    cases Toml.multilineRest? '"' fuel rest <;> rfl

/-! ## Double quotes over several lines -/

/-- The quotes at the front of a text over several lines: fewer than three together with
    those before it, and something else behind them unless they are the end of the text. -/
theorem exists_run_multilineChars {run : Nat} (hrun : run ≤ 2) (cs : List Char) :
    ∃ k, run + k ≤ 2 ∧
      (cs = List.replicate k '"' ∧ multilineChars run cs = List.replicate k '"' ∨
        ∃ d ds, d ≠ '"' ∧ multilineChars run cs = List.replicate k '"' ++ d :: ds) := by
  induction cs generalizing run with
  | nil => exact ⟨0, hrun, .inl ⟨rfl, rfl⟩⟩
  | cons c cs ih =>
    by_cases hquote : c = '"'
    · subst hquote
      by_cases hlt : run < 2
      · obtain ⟨k, hk, h⟩ := ih hlt
        refine ⟨k + 1, by omega, ?_⟩
        rw [multilineChars, if_pos rfl, if_pos hlt]
        rcases h with ⟨hcs, h⟩ | ⟨d, ds, hd, h⟩
        · exact .inl ⟨congrArg _ hcs, congrArg _ h⟩
        · exact .inr ⟨d, ds, hd, congrArg _ h⟩
      · refine ⟨0, by omega, .inr ⟨'\\', '"' :: multilineChars 0 cs, by decide, ?_⟩⟩
        rw [multilineChars, if_pos rfl, if_neg hlt]
        rfl
    · refine ⟨0, hrun, .inr ?_⟩
      by_cases hnewline : c = '\n'
      · subst hnewline
        exact ⟨'\n', multilineChars 0 cs, by decide, rfl⟩
      · obtain ⟨d, ds, hform, hd, -⟩ := (basicForm c).exists_cons
        refine ⟨d, ds ++ multilineChars 0 cs, hd, ?_⟩
        rw [multilineChars, if_neg hquote, if_neg hnewline, hform]
        rfl

/-- What stands for a text over several lines is read as it, up to the three quotes. -/
theorem multilineRest?_multilineChars {run : Nat} (hrun : run ≤ 2) (hfuel : cs.length < fuel)
    (hrest : rest.head? ≠ some '"') :
    multilineRest? '"' fuel (multilineChars run cs ++ '"' :: '"' :: '"' :: rest) =
      some (cs, rest) := by
  induction cs generalizing run fuel with
  | nil =>
    cases fuel with
    | zero => nomatch hfuel
    | succ fuel => exact multilineRest?_of_closing? (closing?_end (k := 0) (by decide) hrest)
  | cons c cs ih =>
    cases fuel with
    | zero => nomatch hfuel
    | succ fuel =>
      rw [List.length_cons, Nat.add_lt_add_iff_right] at hfuel
      have hnext {run : Nat} (hrun : run ≤ 2) :
          (multilineRest? '"' fuel (multilineChars run cs ++ '"' :: '"' :: '"' :: rest)).map
            (Prod.map (c :: ·) id) = some (c :: cs, rest) := by
        rw [ih hrun hfuel]
        rfl
      by_cases hquote : c = '"'
      · subst hquote
        by_cases hlt : run < 2
        · -- A quote that stands for itself, or the first of those that end the text.
          have hplain : multilineChars run ('"' :: cs) = '"' :: multilineChars (run + 1) cs := by
            rw [multilineChars, if_pos rfl, if_pos hlt]
          obtain ⟨k, hk, ⟨hcs, h⟩ | ⟨d, ds, hd, h⟩⟩ := exists_run_multilineChars hrun ('"' :: cs)
          · rw [h, hcs]
            exact multilineRest?_of_closing? (closing?_end (by omega) hrest)
          · have hclosing : closing? '"'
                (multilineChars run ('"' :: cs) ++ '"' :: '"' :: '"' :: rest) = none := by
              rw [h, List.append_assoc]
              exact closing?_of_lt (by omega) hd
            rw [hplain] at hclosing ⊢
            exact (multilineRest?_plain hclosing (by decide) (by decide)).trans (hnext hlt)
        · have hform : BasicForm '"' ['\\', '"'] := basicForm_of_mem (by decide)
          rw [multilineChars, if_pos rfl, if_neg hlt]
          exact hform.multilineRest?.trans (hnext (by decide))
      · by_cases hnewline : c = '\n'
        · subst hnewline
          exact (multilineRest?_newline (by decide)).trans (hnext (by decide))
        · rw [multilineChars, if_neg hquote, if_neg hnewline, List.append_assoc,
            (basicForm c).multilineRest?]
          exact hnext (by decide)

/-! ## Runs of quotes -/

/-- One step of the search for the longest run: the length of the run so far, and the longest
    one up to here. -/
def runStep (q : Char) (s : Nat × Nat) (c : Char) : Nat × Nat :=
  let run := if q = c then s.1 + 1 else 0
  (run, max s.2 run)

theorem longestRun_eq (q : Char) (cs : List Char) :
    longestRun q cs = (cs.foldl (runStep q) (0, 0)).2 :=
  rfl

/-- The longest run so far never gets shorter. -/
theorem le_foldl_runStep (q : Char) (cs : List Char) (s : Nat × Nat) :
    s.2 ≤ (cs.foldl (runStep q) s).2 := by
  induction cs generalizing s with
  | nil => exact le_rfl
  | cons c cs ih => exact le_trans (le_max_left _ _) (ih (runStep q s c))

theorem foldl_runStep_le (q : Char) (cs : List Char) {s : Nat × Nat} (h : s.1 ≤ s.2) :
    (cs.foldl (runStep q) s).1 ≤ (cs.foldl (runStep q) s).2 := by
  induction cs generalizing s with
  | nil => exact h
  | cons c cs ih => exact ih (le_max_right _ _)

theorem foldl_runStep_replicate (q : Char) (k : Nat) (s : Nat × Nat) :
    ((List.replicate k q).foldl (runStep q) s).1 = s.1 + k := by
  induction k generalizing s with
  | zero => rfl
  | succ k ih =>
    rw [List.replicate_succ, List.foldl_cons, ih, runStep, if_pos rfl]
    omega

/-- No run is longer than the longest one. -/
theorem le_longestRun (q : Char) (k : Nat) (front back : List Char) :
    k ≤ longestRun q (front ++ (List.replicate k q ++ back)) := by
  rw [longestRun_eq, List.foldl_append, List.foldl_append]
  generalize hs : front.foldl (runStep q) (0, 0) = s
  have hle : s.1 ≤ s.2 := hs ▸ foldl_runStep_le q front le_rfl
  calc
    k ≤ ((List.replicate k q).foldl (runStep q) s).1 := by
      rw [foldl_runStep_replicate]
      omega
    _ ≤ ((List.replicate k q).foldl (runStep q) s).2 := foldl_runStep_le q _ hle
    _ ≤ _ := le_foldl_runStep q back _

/-- Without a run of quotes there is no quote. -/
theorem notMem_of_longestRun (h : longestRun q cs = 0) : q ∉ cs := by
  intro hq
  obtain ⟨front, back, rfl⟩ := List.append_of_mem hq
  have := le_longestRun q 1 front back
  simp_all

/-! ## Single quotes over several lines -/

/-- Over several lines between single quotes a text with no three quotes in a row is read as it
    is. -/
theorem multilineRest?_single (front : List Char) (hfuel : cs.length < fuel)
    (hcontrol : cs.any isControl = false) (hrun : longestRun '\'' (front ++ cs) ≤ 2)
    (hrest : rest.head? ≠ some '\'') :
    multilineRest? '\'' fuel (cs ++ '\'' :: '\'' :: '\'' :: rest) = some (cs, rest) := by
  induction cs generalizing fuel front with
  | nil =>
    cases fuel with
    | zero => nomatch hfuel
    | succ fuel => exact multilineRest?_of_closing? (closing?_end (k := 0) (by decide) hrest)
  | cons c cs ih =>
    cases fuel with
    | zero => nomatch hfuel
    | succ fuel =>
      rw [List.length_cons, Nat.add_lt_add_iff_right] at hfuel
      rw [List.any_cons, Bool.or_eq_false_iff] at hcontrol
      have hnext : (multilineRest? '\'' fuel (cs ++ '\'' :: '\'' :: '\'' :: rest)).map
          (Prod.map (c :: ·) id) = some (c :: cs, rest) := by
        rw [ih (front ++ [c]) hfuel hcontrol.2 (by simpa using hrun)]
        rfl
      by_cases hnewline : c = '\n'
      · subst hnewline
        exact (multilineRest?_newline (by decide)).trans hnext
      · have htext : isText c = true := isText_iff.2 ⟨hcontrol.1, hnewline⟩
        -- The quotes here end the text, or something else comes before a third one.
        obtain ⟨quotes, back, hcs, hquotes, hback⟩ := Text.exists_run (· = '\'') (c :: cs)
        have hquotes : quotes = List.replicate quotes.length '\'' :=
          List.eq_replicate_of_mem (by simpa using hquotes)
        rw [hquotes] at hcs
        have hlength : quotes.length ≤ 2 := by
          rw [hcs] at hrun
          exact (le_longestRun _ _ _ _).trans hrun
        cases back with
        | nil =>
          rw [hcs, List.append_nil]
          exact multilineRest?_of_closing? (closing?_end hlength hrest)
        | cons d ds =>
          have hclosing : closing? '\'' (c :: cs ++ '\'' :: '\'' :: '\'' :: rest) = none := by
            rw [hcs, List.append_assoc]
            exact closing?_of_lt (by omega) (by simpa using hback d rfl)
          exact (multilineRest?_plain hclosing htext (by simp)).trans hnext

/-! ## Texts as values -/

/-- What does not open three quotes in a row is a text of one line. -/
theorem text?_of_line {w : List Char} (h : ∀ more, w ≠ q :: q :: more) :
    text? fuel (q :: w) = lineText? fuel (q :: w) := by
  unfold text?
  split
  · next heq =>
    cases heq
    exact absurd rfl (h _)
  · next heq =>
    cases heq
    exact absurd rfl (h _)
  · rfl

/-- What is behind a text: no quote, which would be taken for one of the text. -/
def IsBehindText (rest : List Char) : Prop :=
  rest.head? ≠ some '"' ∧ rest.head? ≠ some '\''

variable (hrest : IsBehindText rest)

include hrest

/-- A text between double quotes is read back. -/
theorem text?_basicText (hfuel : cs.length < fuel) :
    text? fuel (basicText cs ++ rest) = some (cs, rest) := by
  have hline : ∀ more, cs.flatMap basicChar ++ '"' :: rest ≠ '"' :: '"' :: more := by
    intro more h
    cases cs with
    | nil =>
      obtain rfl : rest = '"' :: more := (List.cons.inj h).2
      exact hrest.1 rfl
    | cons c cs =>
      obtain ⟨d, ds, hform, hd, -⟩ := (basicForm c).exists_cons
      rw [List.flatMap_cons, hform] at h
      exact hd (List.cons.inj h).1
  have hread : lineText? fuel (basicText cs ++ rest) = some (cs, rest) := lineText?_basicText hfuel
  rw [basicText, List.append_assoc] at hread ⊢
  exact (text?_of_line hline).trans hread

/-- A text between single quotes is read back. -/
theorem text?_literalText (htext : cs.all isText) (hquote : '\'' ∉ cs) :
    text? fuel (literalText cs ++ rest) = some (cs, rest) := by
  have hline : ∀ more, cs ++ '\'' :: rest ≠ '\'' :: '\'' :: more := by
    intro more h
    cases cs with
    | nil =>
      obtain rfl : rest = '\'' :: more := (List.cons.inj h).2
      exact hrest.2 rfl
    | cons c cs => exact hquote (by simp [(List.cons.inj h).1])
  have hread : lineText? fuel (literalText cs ++ rest) = some (cs, rest) :=
    lineText?_literalText htext hquote
  rw [literalText, List.append_assoc] at hread ⊢
  exact (text?_of_line hline).trans hread

/-- A text over several lines between double quotes is read back. -/
theorem text?_multilineText (hfuel : cs.length < fuel) :
    text? fuel (multilineText cs ++ rest) = some (cs, rest) := by
  rw [multilineText, List.append_assoc, List.append_assoc]
  exact multilineRest?_multilineChars (by decide : 0 ≤ 2) hfuel hrest.1

/-- Without line breaks nothing is lost behind the opening quotes. -/
theorem text?_tripled (hfuel : cs.length < fuel) (hnewline : '\n' ∉ cs) :
    text? fuel (['"', '"', '"'] ++ multilineChars 0 cs ++ ['"', '"', '"'] ++ rest) =
      some (cs, rest) := by
  have hfirst : newline? (multilineChars 0 cs ++ '"' :: '"' :: '"' :: rest) = none := by
    cases cs with
    | nil => exact newline?_of_isText (by decide)
    | cons c cs =>
      rw [List.mem_cons, not_or] at hnewline
      by_cases hquote : c = '"'
      · subst hquote
        exact newline?_of_isText (by decide)
      · obtain ⟨d, ds, hform, -, hd⟩ := (basicForm c).exists_cons
        rw [multilineChars, if_neg hquote, if_neg (Ne.symm hnewline.1), hform]
        exact newline?_of_isText hd
  have hread := multilineRest?_multilineChars (by decide : 0 ≤ 2) hfuel hrest.1
  rw [List.append_assoc, List.append_assoc]
  change multilineRest? '"' fuel (Option.getD (newline? (_ ++ '"' :: '"' :: '"' :: rest)) _) = _
  rw [hfirst]
  exact hread

/-- A text over several lines between single quotes is read back. -/
theorem text?_multilineLiteralText (hfuel : cs.length < fuel)
    (hcontrol : cs.any isControl = false) (hrun : longestRun '\'' cs ≤ 2) :
    text? fuel (multilineLiteralText (cs.contains '\n') cs ++ rest) = some (cs, rest) := by
  have hread := multilineRest?_single [] hfuel hcontrol hrun hrest.2
  by_cases hnewline : '\n' ∈ cs
  · rw [multilineLiteralText, List.contains_iff_mem.2 hnewline, List.append_assoc,
      List.append_assoc]
    exact hread
  · have hfirst : newline? (cs ++ '\'' :: '\'' :: '\'' :: rest) = none := by
      cases cs with
      | nil => exact newline?_of_isText (by decide)
      | cons c cs =>
        rw [List.mem_cons, not_or] at hnewline
        rw [List.any_cons, Bool.or_eq_false_iff] at hcontrol
        exact newline?_of_isText (isText_iff.2 ⟨hcontrol.1, Ne.symm hnewline.1⟩)
    have hcontains : cs.contains '\n' = false := by simpa using hnewline
    rw [multilineLiteralText, hcontains, List.append_assoc, List.append_assoc, List.append_assoc]
    change multilineRest? '\'' fuel
      (Option.getD (newline? (_ ++ '\'' :: '\'' :: '\'' :: rest)) _) = _
    rw [hfirst]
    exact hread

/-- A text is read back from how it is written as a value. -/
theorem text?_printText {s : String} (hfuel : s.toList.length < fuel) :
    text? fuel (printText s ++ rest) = some (s.toList, rest) := by
  unfold printText
  simp only
  split
  · exact text?_basicText hrest hfuel
  · split
    · next h =>
      simp only [Bool.and_eq_true, Bool.not_eq_true', decide_eq_true_eq] at h
      obtain ⟨⟨hcontrol, hsingle⟩, hnewline⟩ := h
      exact text?_literalText hrest (all_isText hcontrol hnewline) (notMem_of_longestRun hsingle)
    · split
      · split
        · exact text?_multilineText hrest hfuel
        · next hnewline => exact text?_tripled hrest hfuel (by simpa using hnewline)
      · split
        · next h =>
          simp only [Bool.and_eq_true, Bool.not_eq_true', decide_eq_true_eq] at h
          exact text?_multilineLiteralText hrest hfuel h.1 h.2
        · split
          · exact text?_multilineText hrest hfuel
          · exact text?_basicText hrest hfuel

omit hrest

/-! ## Lengths -/

theorem length_le_flatMap_basicChar (cs : List Char) :
    cs.length ≤ (cs.flatMap basicChar).length := by
  induction cs with
  | nil => exact le_rfl
  | cons c cs ih =>
    obtain ⟨d, ds, hform, -⟩ := (basicForm c).exists_cons
    rw [List.flatMap_cons, hform, List.length_append, List.length_cons, List.length_cons]
    omega

theorem length_le_multilineChars (run : Nat) (cs : List Char) :
    cs.length ≤ (multilineChars run cs).length := by
  induction cs generalizing run with
  | nil => exact le_rfl
  | cons c cs ih =>
    have h₀ := ih 0
    have h₁ := ih (run + 1)
    obtain ⟨d, ds, hform, -⟩ := (basicForm c).exists_cons
    rw [multilineChars, hform]
    split_ifs <;> simp only [List.length_cons, List.length_append] <;> omega

/-- A text is shorter than what it is written as, so the fuel for the latter is enough. -/
theorem length_lt_printText (s : String) : s.toList.length < (printText s).length := by
  have hbasic := length_le_flatMap_basicChar s.toList
  have hmultiline := length_le_multilineChars 0 s.toList
  unfold printText
  simp only [basicText, literalText, multilineText, multilineLiteralText]
  split_ifs <;> simp only [List.length_cons, List.length_append, List.length_nil] <;> omega

theorem length_le_printKey (s : String) : s.toList.length ≤ (printKey s).length := by
  have hbasic := length_le_flatMap_basicChar s.toList
  unfold printKey
  simp only [basicText, literalText]
  split_ifs
  · exact le_rfl
  all_goals
    simp only [List.length_cons, List.length_append, List.length_nil]
    omega

end ManifestBundle.Toml
