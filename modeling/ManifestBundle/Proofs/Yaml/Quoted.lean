import ManifestBundle.Proofs.Yaml.Cursor

/-!
# Reading back a quoted scalar

The text between quotes is words with gaps of white space between them. A word is read
from its code, in which quotes are doubled or escaped (`Quote.Codes`), and a gap is
folded. `Quote.Spells` puts words and gaps together, and what is spelled so is read back
(`Quote.Spells.quotedRest`); it remains to see that both ways of writing spell their
text.

* Between single quotes each run of line breaks is followed by the indentation of the
  next line, which folding drops again (`singleText_append`).
* Between double quotes all but spaces and printable characters is escaped, so the only
  gaps are spaces (`doubleText_append`).
-/

namespace ManifestBundle.Yaml

/-! ## Words and gaps -/

namespace Quote

variable (q : Quote)

/-- A word ends here: white space follows, or the closing quote. -/
def EndsWord (cs : List Char) : Prop :=
  ∃ c rest, cs = c :: rest ∧ (isWhite c ∨ c = q.char ∧ rest.head? ≠ some q.char)

/-- The code is read as the word, up to the end of a word. -/
structure Codes (code w : List Char) : Prop where
  any_isBreak : code.any isBreak = false
  word? : ∀ (fuel : Nat) (m : Mark) (tail : List Char), code.length < fuel → q.EndsWord tail →
    q.word? fuel ⟨code ++ tail, m⟩ = some (w, ⟨tail, m.after code⟩, false)

/-- White space that does not end at the start of a line. -/
structure IsGap (gap : List Char) : Prop where
  ne_nil : gap ≠ []
  all_isWhite : gap.all isWhite
  column_ne : ∀ m : Mark, m.column ≠ 0 → (m.after gap).column ≠ 0

/-- What stands between the quotes, and the text that it spells. -/
inductive Spells : List Char → List Char → Prop
  | word {code w : List Char} (h : q.Codes code w) : Spells code w
  | gap {code w gap rest text : List Char} (hw : q.Codes code w) (hg : IsGap gap)
      (hs : ∀ c, rest.head? = some c → isWhite c = false) (h : Spells rest text) :
      Spells (code ++ (gap ++ rest)) (w ++ foldGap gap ++ text)

variable {q}

theorem not_isWhite_char : isWhite q.char = false := by
  cases q <;> decide

theorem not_isBreak_char : isBreak q.char = false := by
  cases q <;> decide

/-- A gap starts with white space. -/
theorem IsGap.head (h : IsGap gap) : ∃ c cs, gap = c :: cs ∧ isWhite c := by
  cases gap with
  | nil => exact absurd rfl h.ne_nil
  | cons c cs => exact ⟨c, cs, rfl, List.all_eq_true.1 h.all_isWhite c List.mem_cons_self⟩

/-- A word does not end at the start of a line if it does not start there. -/
theorem Codes.column_ne {code w : List Char} (h : q.Codes code w) {m : Mark} (hm : m.column ≠ 0) :
    (m.after code).column ≠ 0 := by
  rw [Mark.column_after_of_no_break m h.any_isBreak]
  omega

/-- The mark of a document stands at the start of a line only. -/
theorem not_atDocumentMark {k : Cursor} (h : k.mark.column ≠ 0) : k.atDocumentMark = false := by
  simp [Cursor.atDocumentMark, Cursor.column, h]

/-- What is spelled between quotes is read back, up to the closing quote. -/
theorem Spells.quotedRest {code text rest : List Char} (h : q.Spells code text)
    (hr : rest.head? ≠ some q.char) {fuel : Nat} {m : Mark} (hf : code.length + 1 < fuel)
    (hm : m.column ≠ 0) :
    quotedRest q fuel ⟨code ++ q.char :: rest, m⟩ =
      some (text, ⟨rest, m.after (code ++ [q.char])⟩) := by
  induction h generalizing fuel m with
  | @word code w h =>
    cases fuel with
    | zero => omega
    | succ fuel =>
      have hend : q.EndsWord (q.char :: rest) := ⟨_, _, rfl, .inr ⟨rfl, hr⟩⟩
      have hword := h.word? fuel m _ (by omega) hend
      rw [Yaml.quotedRest, not_atDocumentMark hm]
      simp [hword, Cursor.next]
  | @gap code w gap more text hw hg hs h ih =>
    cases fuel with
    | zero => omega
    | succ fuel =>
      obtain ⟨c, cs, rfl, hc⟩ := hg.head
      have hend : q.EndsWord (c :: cs ++ (more ++ q.char :: rest)) := ⟨_, _, rfl, .inl hc⟩
      have hq : c ≠ q.char := by
        rintro rfl
        simp [not_isWhite_char] at hc
      simp only [List.length_append, List.length_cons] at hf
      have hspan : (⟨c :: cs ++ (more ++ q.char :: rest), m.after code⟩ : Cursor).span isWhite =
          (c :: cs, ⟨more ++ q.char :: rest, (m.after code).after (c :: cs)⟩) := by
        refine Cursor.span_run _ hg.all_isWhite fun d hd => ?_
        cases more with
        | nil => cases hd; exact not_isWhite_char
        | cons => exact hs d hd
      have hword := hw.word? fuel m _ (by omega) hend
      have hshort : more.length + 1 < fuel := by omega
      have hrest := ih hshort (hg.column_ne _ (hw.column_ne hm))
      rw [Yaml.quotedRest, not_atDocumentMark hm, List.append_assoc, List.append_assoc]
      simp only [List.cons_append, Mark.after_cons] at hword hspan hrest
      simp [hword, hspan, hq, hrest]

/-- A quoted scalar is read back. -/
theorem Spells.quoted? {code text rest : List Char} (h : q.Spells code text)
    (hr : rest.head? ≠ some q.char) {fuel : Nat} (hf : code.length + 2 ≤ fuel) (m : Mark) :
    quoted? q fuel ⟨q.char :: code ++ [q.char] ++ rest, m⟩ =
      some (text, ⟨rest, m.after (q.char :: code ++ [q.char])⟩) := by
  have hm : (m.next q.char).column ≠ 0 := by
    simp [Mark.next_of_not_break m not_isBreak_char]
  have hrest := h.quotedRest hr (by omega : code.length + 1 < fuel) hm
  simpa [Yaml.quoted?, Cursor.next] using hrest

end Quote

/-! ## Single quotes -/

/-- A character between single quotes. -/
def singleChar (c : Char) : List Char :=
  if c = '\'' then ['\'', '\''] else [c]

/-- The rest of a text between single quotes, up to the closing one. `lineStart` says
    that it starts a line. -/
def singleBody (indent : Nat) : (lineStart : Bool) → List Char → List Char
  | lineStart, [] => if lineStart then pad indent else []
  | lineStart, c :: cs =>
    if isBreak c then c :: singleBody indent true cs
    else (if lineStart then pad indent else []) ++ (singleChar c ++ singleBody indent false cs)

theorem singleChar_of_isBreak {c : Char} (h : isBreak c) : singleChar c = [c] := by
  rw [singleChar, if_neg]
  rintro rfl
  exact absurd h (by decide)

theorem indentLines_singleChar {indent : Nat} {lineStart : Bool} {c : Char} (h : isBreak c = false)
    (cs : List Char) :
    indentLines indent lineStart (singleChar c ++ cs) =
      (if lineStart then pad indent else []) ++ (singleChar c ++ indentLines indent false cs) := by
  have hquote : isBreak '\'' = false := by decide
  rw [singleChar]
  split <;> simp [indentLines, h, hquote]

/-- Indenting what is between single quotes and doubling the quotes are one pass over the text.
    -/
theorem indentLines_flatMap (indent : Nat) (lineStart : Bool) (cs : List Char) :
    indentLines indent lineStart (cs.flatMap singleChar) ++
      (if (lineStart && cs.isEmpty) || cs.getLast?.any isBreak then pad indent else []) =
      singleBody indent lineStart cs := by
  induction cs generalizing lineStart with
  | nil => simp [singleBody, indentLines]
  | cons c cs ih =>
    have hlast : (c :: cs).getLast?.any isBreak =
        ((isBreak c && cs.isEmpty) || cs.getLast?.any isBreak) := by
      cases cs <;> simp
    rw [List.flatMap_cons, singleBody]
    by_cases hc : isBreak c
    · rw [singleChar_of_isBreak hc, if_pos hc, ← ih, hlast]
      simp [indentLines, hc]
    · rw [Bool.not_eq_true] at hc
      rw [indentLines_singleChar hc, hc, if_neg Bool.false_ne_true, ← ih, hlast]
      simp [hc]

/-- A text between single quotes is written in one pass. -/
theorem singleText_eq (indent : Nat) (cs : List Char) :
    singleText indent cs = '\'' :: singleBody indent false cs ++ ['\''] := by
  have h := indentLines_flatMap indent false cs
  rw [Bool.false_and, Bool.false_or] at h
  rw [← h, singleText]
  change '\'' :: indentLines indent false (cs.flatMap singleChar) ++ _ ++ _ = _
  simp

/-- A word without line breaks is written with its quotes doubled. -/
theorem singleBody_word {indent : Nat} {w : List Char} (hw : w.any isBreak = false)
    (cs : List Char) :
    singleBody indent false (w ++ cs) = w.flatMap singleChar ++ singleBody indent false cs := by
  induction w with
  | nil => rfl
  | cons c w ih =>
    rw [List.any_cons, Bool.or_eq_false_iff] at hw
    rw [List.cons_append, singleBody, if_neg (by simp [hw.1]), ih hw.2]
    simp

/-- A run of line breaks is followed by the indentation of the next line. -/
theorem singleBody_breaks {indent : Nat} {gap cs : List Char} (hne : gap ≠ [])
    (hgap : gap.all isBreak) (hcs : ∀ c, cs.head? = some c → isBreak c = false)
    (lineStart : Bool) :
    singleBody indent lineStart (gap ++ cs) =
      gap ++ (pad indent ++ singleBody indent false cs) := by
  induction gap generalizing lineStart with
  | nil => exact absurd rfl hne
  | cons c gap ih =>
    rw [List.all_cons, Bool.and_eq_true] at hgap
    rw [List.cons_append, singleBody, if_pos hgap.1]
    cases gap with
    | nil =>
      cases cs with
      | nil => simp [singleBody]
      | cons d cs => simp [singleBody, hcs d rfl]
    | cons d gap =>
      rw [ih (List.cons_ne_nil d gap) hgap.2]
      rfl

/-- A word between single quotes is read back with its quotes halved, up to its end. -/
theorem singleWord_append {w : List Char} (hw : w.any isWhite = false) {fuel : Nat} (m : Mark)
    {tail : List Char} (hf : (w.flatMap singleChar).length < fuel)
    (ht : Quote.single.EndsWord tail) :
    singleWord fuel ⟨w.flatMap singleChar ++ tail, m⟩ =
      (w, ⟨tail, m.after (w.flatMap singleChar)⟩) := by
  induction fuel generalizing w m with
  | zero => omega
  | succ fuel ih =>
    cases w with
    | nil =>
      obtain ⟨c, rest, rfl, hc | ⟨rfl, hr⟩⟩ := ht
      · simp [singleWord, hc]
      · have hquote : isWhite '\'' = false := by decide
        rw [Quote.char] at hr
        simp [singleWord, Quote.char, hquote, hr]
    | cons c w =>
      rw [List.any_cons, Bool.or_eq_false_iff] at hw
      rw [List.flatMap_cons, List.length_append] at hf
      -- A quote is written twice.
      by_cases hc : c = '\''
      · subst hc
        have hchar : singleChar '\'' = ['\'', '\''] := rfl
        rw [hchar, List.length_cons, List.length_singleton] at hf
        have hword := ih hw.2 ((m.next '\'').next '\'') (by omega)
        rw [List.flatMap_cons, hchar]
        simp [singleWord, hw.1, Cursor.skip, Cursor.next, hword]
      · have hchar : singleChar c = [c] := if_neg hc
        rw [hchar, List.length_singleton] at hf
        have hword := ih hw.2 (m.next c) (by omega)
        rw [List.flatMap_cons, hchar]
        simp [singleWord, hw.1, hc, Cursor.next, hword]

theorem hasNeighbours_right {p q : Char → Bool} {cs ds : List Char}
    (h : hasNeighbours p q (cs ++ ds) = false) : hasNeighbours p q ds = false := by
  induction cs with
  | nil => exact h
  | cons c cs ih =>
    refine ih ?_
    cases hcs : cs ++ ds with
    | nil => rfl
    | cons d es =>
      rw [List.cons_append, hcs, hasNeighbours, Bool.or_eq_false_iff] at h
      exact h.2

/-- What follows a run of the one class is not of the other. -/
theorem not_of_hasNeighbours {p q : Char → Bool} {run cs : List Char} {c : Char}
    (h : hasNeighbours p q (run ++ c :: cs) = false) (hne : run ≠ []) (hrun : run.all p) :
    q c = false := by
  obtain ⟨run, d, rfl⟩ := (List.eq_nil_or_concat' run).resolve_left hne
  rw [List.append_assoc] at h
  have := hasNeighbours_right h
  simp_all [hasNeighbours]

/-- A part of a text between single quotes: printable, on one line but for the separators
    of lines and paragraphs, at which no spaces stand. -/
structure SinglePart (cs : List Char) : Prop where
  printable : cs.all isPrintable
  no_newline : '\n' ∉ cs
  no_space_break : hasNeighbours (· = ' ') isBreak cs = false
  no_break_space : hasNeighbours isBreak (· = ' ') cs = false

namespace SinglePart

variable {cs ds : List Char}

/-- What is behind a part of a text that can stand between single quotes can stand there, too.
    -/
theorem right (h : SinglePart (cs ++ ds)) : SinglePart ds where
  printable := by
    have := h.printable
    rw [List.all_append, Bool.and_eq_true] at this
    exact this.2
  no_newline hd := h.no_newline (List.mem_append_right cs hd)
  no_space_break := hasNeighbours_right h.no_space_break
  no_break_space := hasNeighbours_right h.no_break_space

theorem isWhite_head {c : Char} (h : SinglePart (c :: cs)) :
    isWhite c = (decide (c = ' ') || isBreak c) := by
  have hprint := List.all_eq_true.1 h.printable c List.mem_cons_self
  have htab : c ≠ '\t' := by
    rintro rfl
    simp [isPrintable] at hprint
  simp [isWhite, isBlank, htab]

end SinglePart

/-- Folding drops the indentation behind line breaks and keeps the line breaks. -/
theorem foldGap_of_breaks {gap : List Char} (hne : gap ≠ []) (hgap : gap.all isBreak)
    (hline : '\n' ∉ gap) (n : Nat) : foldGap (gap ++ pad n) = gap := by
  have hfilter : (gap ++ pad n).filter isBreak = gap := by
    rw [List.filter_append, List.filter_eq_self.2 (List.all_eq_true.1 hgap)]
    simp [pad, not_isBreak_space]
  rw [foldGap, hfilter]
  cases gap with
  | nil => exact absurd rfl hne
  | cons c gap =>
    have hc : c ≠ '\n' := fun h => hline (h ▸ List.mem_cons_self)
    split <;> simp_all

/-- A word without white space is coded by doubling its quotes. -/
theorem codes_single {w : List Char} (h : w.any isWhite = false) :
    Quote.single.Codes (w.flatMap singleChar) w where
  any_isBreak := by
    have hbreak : ∀ c ∈ w, isBreak c = false := by
      intro c hc
      have := List.any_eq_false.1 h c hc
      simp_all [isWhite]
    rw [List.any_flatMap, List.any_eq_false]
    intro c hc
    have := hbreak c hc
    rw [singleChar]
    split <;> simp_all
  word? fuel m tail hf ht := by
    rw [Quote.word?, singleWord_append h m hf ht]

theorem flatMap_singleChar_pad (n : Nat) : (pad n).flatMap singleChar = pad n := by
  have hspace : singleChar ' ' = [' '] := rfl
  rw [pad, List.flatMap_replicate, hspace]
  simp

theorem isGap_pad (n : Nat) : Quote.IsGap (pad (n + 1)) where
  ne_nil := List.cons_ne_nil _ _
  all_isWhite := by simp [pad, isWhite, isBlank]
  column_ne m hm := by
    rw [Mark.column_after_of_no_break m (any_isBreak_pad _)]
    omega

/-- Line breaks and the indentation of the next line are a gap. -/
theorem isGap_breaks {gap : List Char} (hne : gap ≠ []) (hgap : gap.all isBreak) {indent : Nat}
    (hi : 0 < indent) : Quote.IsGap (gap ++ pad indent) where
  ne_nil := by simp [hne]
  all_isWhite := by
    rw [List.all_append, Bool.and_eq_true, List.all_eq_true]
    refine ⟨fun c hc => ?_, by simp [pad, isWhite, isBlank]⟩
    simp [isWhite, List.all_eq_true.1 hgap c hc]
  column_ne m _ := by
    rw [Mark.column_after_breaks m hne hgap (any_isBreak_pad _), length_pad]
    omega

theorem head_singleBody {indent : Nat} {cs : List Char} {c : Char}
    (h : (singleBody indent false cs).head? = some c) : cs.head? = some c := by
  cases cs with
  | nil => simp [singleBody] at h
  | cons d cs =>
    by_cases hd : isBreak d
    · simpa [singleBody, hd] using h
    · by_cases hq : d = '\''
      · subst hq
        simpa [singleBody, hd, singleChar] using h
      · simpa [singleBody, hd, singleChar, hq] using h

/-- Neither a space nor a line break starts the code of a text that starts with neither. -/
theorem SinglePart.not_isWhite_singleBody {cs : List Char} (h : SinglePart cs) (indent : Nat)
    (hcs : ∀ c more, cs = c :: more → decide (c = ' ') = false ∧ isBreak c = false) :
    ∀ d, (singleBody indent false cs).head? = some d → isWhite d = false := by
  intro d hd
  obtain ⟨more, rfl⟩ := List.head?_eq_some_iff.1 (head_singleBody hd)
  obtain ⟨hspace, hbreak⟩ := hcs d more rfl
  rw [h.isWhite_head, hspace, hbreak, Bool.or_false]

/-- What stands between single quotes spells the text. -/
theorem spells_single {indent : Nat} (hi : 0 < indent) {cs : List Char} (h : SinglePart cs) :
    Quote.single.Spells (singleBody indent false cs) cs := by
  induction hn : cs.length using Nat.strongRecOn generalizing cs with
  | ind n ih =>
    obtain ⟨w, rest, rfl, hw, hrest⟩ := Text.exists_run (!isWhite ·) cs
    have hwhite : w.any isWhite = false := by simpa [List.any_eq_false] using hw
    have hcodes := codes_single hwhite
    rw [singleBody_word (by simp_all [isWhite])]
    cases rest with
    | nil => simpa [singleBody] using Quote.Spells.word hcodes
    | cons c rest =>
      have hc : isWhite c := by simpa using hrest c rfl
      by_cases hbreak : isBreak c
      · -- A run of line breaks, behind which the next line is indented.
        obtain ⟨gap, behind, rfl, hgap, hbehind⟩ := Text.exists_run isBreak rest
        have hall : (c :: gap).all isBreak := by simp [hbreak, hgap]
        have hne : c :: gap ≠ [] := List.cons_ne_nil c gap
        rw [← List.cons_append] at h ⊢
        have hline : '\n' ∉ c :: gap := fun hg => h.right.no_newline (List.mem_append_left _ hg)
        have hwhite := h.right.right.not_isWhite_singleBody indent fun d more hd => by
          subst hd
          exact ⟨not_of_hasNeighbours h.right.no_break_space hne hall, hbehind d rfl⟩
        simp only [List.length_append, List.length_cons] at hn
        have hspells := ih behind.length (by omega) h.right.right rfl
        have htext := Quote.Spells.gap hcodes (isGap_breaks hne hall hi) hwhite hspells
        rw [foldGap_of_breaks hne hall hline] at htext
        rw [singleBody_breaks hne hall hbehind]
        simpa using htext
      · -- A run of spaces.
        have hspace : c = ' ' := by
          have := h.right.isWhite_head
          simp_all
        obtain ⟨n, behind, rfl, hbehind⟩ := exists_pad rest
        subst hspace
        rw [← List.cons_append, ← pad_succ] at h ⊢
        have hall : (pad (n + 1)).all (· = ' ') := by simp [pad]
        have hwhite := h.right.right.not_isWhite_singleBody indent fun d more hd => by
          subst hd
          have hbreak := not_of_hasNeighbours h.right.no_space_break (List.cons_ne_nil _ _) hall
          exact ⟨by simpa using hbehind d rfl, hbreak⟩
        simp only [List.length_append, List.length_cons, length_pad] at hn
        have hspells := ih behind.length (by omega) h.right.right rfl
        have htext := Quote.Spells.gap hcodes (isGap_pad n) hwhite hspells
        rw [foldGap_of_no_break (any_isBreak_pad _)] at htext
        rw [singleBody_word (any_isBreak_pad _), flatMap_singleChar_pad]
        simpa using htext

/-- A text between single quotes is read back. -/
theorem singleText_append {indent : Nat} (hi : 0 < indent) {cs rest : List Char}
    (h : SinglePart cs) (hr : rest.head? ≠ some '\'') {fuel : Nat}
    (hf : (singleText indent cs).length ≤ fuel) (m : Mark) :
    quoted? .single fuel ⟨singleText indent cs ++ rest, m⟩ =
      some (cs, ⟨rest, m.after (singleText indent cs)⟩) := by
  rw [singleText_eq, List.length_append, List.length_cons, List.length_singleton] at hf
  rw [singleText_eq]
  exact (spells_single hi h).quoted? hr hf m

/-! ## Double quotes -/

/-- How a character is written between double quotes. -/
inductive DoubleCode (c : Char) : List Char → Prop
  /-- As it is. -/
  | self (hc : isPrintable c && !isBreak c) (hq : c ≠ '"') (hb : c ≠ '\\') : DoubleCode c [c]
  /-- By an escape. -/
  | escape (d : Char) (cs : List Char) (hcs : (d :: cs).all fun c => isPrintable c && !isBreak c)
      (hescape : ∀ tail, escape? (d :: cs ++ tail) = some (c, cs.length + 1)) :
      DoubleCode c ('\\' :: d :: cs)

/-- A code point in so many digits stands for its character. -/
theorem doubleCode_hex {c : Char} {width : Nat} {letter : Char} (hw : 0 < width)
    (hn : c.toNat < 16 ^ width) (hletter : escapes.lookup letter = none)
    (hwidth : escapeWidth? letter = some width)
    (hprint : isPrintable letter && !isBreak letter) :
    DoubleCode c ('\\' :: letter :: (Text.paddedHex width c.toNat).map Char.toUpper) := by
  have hlen : ((Text.paddedHex width c.toNat).map Char.toUpper).length = width := by
    rw [List.length_map, Text.length_paddedHex hw hn]
  refine .escape letter _ ?_ fun tail => ?_
  · rw [List.all_cons, hprint, Bool.true_and, List.all_map, List.all_eq_true]
    intro x hx
    obtain ⟨d, hd, rfl⟩ := Text.exists_digit_of_mem_paddedHex hx
    clear hx
    revert d
    decide
  · have htake : ((Text.paddedHex width c.toNat).map Char.toUpper ++ tail).take width =
        (Text.paddedHex width c.toNat).map Char.toUpper := by
      rw [List.take_append_of_le_length (Nat.le_of_eq hlen.symm),
        List.take_of_length_le (Nat.le_of_eq hlen)]
    simp only [List.cons_append, escape?, hletter, hwidth, Option.bind_eq_bind, Option.bind_some,
      htake, hlen, Nat.lt_irrefl, if_false, Text.charOfHex?_paddedHex]
    rfl

/-- Every character has a code between double quotes. -/
theorem doubleCode (c : Char) : DoubleCode c (doubleChar c) := by
  rw [doubleChar]
  split
  · next h =>
    simp only [Bool.and_eq_true, decide_eq_true_eq] at h
    exact .self (by simp [h]) h.1.2 h.2
  · split
    · next letter d hfind =>
      have hmem := List.mem_of_find?_eq_some hfind
      have hd : d = c := by simpa using List.find?_some hfind
      subst hd
      -- A tab behind the backslash stands for a tab, too, but is not the first to do so.
      have htab : letter ≠ '\t' := by
        rintro rfl
        have hd : d = '\t' := by
          revert hmem
          simp [escapes]
        subst hd
        exact absurd hfind (by decide)
      have hall : ∀ p ∈ escapes, p.1 ≠ '\t' →
          (isPrintable p.1 && !isBreak p.1) ∧ escapes.lookup p.1 = some p.2 := by
        decide
      obtain ⟨hprint, hlookup⟩ := hall _ hmem htab
      exact .escape letter [] (by simpa using hprint) fun tail => by simp [escape?, hlookup]
    · have hc : c.toNat < 0x110000 := by
        have := c.valid
        simp only [UInt32.isValidChar, Nat.isValidChar] at this
        simp only [Char.toNat]
        omega
      split
      · exact doubleCode_hex (by decide) (by omega) (by decide) (by decide) (by decide)
      · split
        · exact doubleCode_hex (by decide) (by omega) (by decide) (by decide) (by decide)
        · exact doubleCode_hex (by decide) (by omega) (by decide) (by decide) (by decide)

theorem DoubleCode.any_isBreak {c : Char} {code : List Char} (h : DoubleCode c code) :
    code.any isBreak = false := by
  cases h with
  | self hc => simp_all
  | escape d cs hcs =>
    have hslash : isBreak '\\' = false := by decide
    simp_all

theorem DoubleCode.all_isPrintable {c : Char} {code : List Char} (h : DoubleCode c code) :
    code.all isPrintable := by
  cases h with
  | self hc => simp_all
  | escape d cs hcs =>
    have hslash : isPrintable '\\' := by decide
    simp_all

/-- A word between double quotes is read back with its escapes undone, up to its end. -/
theorem doubleWord_append {w : List Char} (hw : ∀ c ∈ w, c ≠ ' ') {fuel : Nat} (m : Mark)
    {tail : List Char} (hf : (w.flatMap doubleChar).length < fuel)
    (ht : Quote.double.EndsWord tail) :
    doubleWord fuel ⟨w.flatMap doubleChar ++ tail, m⟩ =
      some (w, ⟨tail, m.after (w.flatMap doubleChar)⟩, false) := by
  induction fuel generalizing w m with
  | zero => omega
  | succ fuel ih =>
    cases w with
    | nil =>
      obtain ⟨c, rest, rfl, hc | ⟨rfl, -⟩⟩ := ht
      · simp [doubleWord, hc]
      · simp [doubleWord, Quote.char]
    | cons c w =>
      have hcode := doubleCode c
      rw [List.flatMap_cons] at hf ⊢
      generalize doubleChar c = code at hcode hf ⊢
      rw [List.length_append] at hf
      have hne : c ≠ ' ' := hw c List.mem_cons_self
      have hrest := fun m h => ih (fun d hd => hw d (List.mem_cons_of_mem c hd)) m h
      cases hcode with
      | self hc hq hb =>
        have hwhite : isWhite c = false := by simp [isWhite_of_isPrintable hc, hne]
        rw [List.length_singleton] at hf
        have hword := hrest (m.next c) (by omega)
        simp [doubleWord, hwhite, hq, hb, Cursor.next, hword]
      | escape d cs hcs hescape =>
        have hslash : isWhite '\\' = false := by decide
        have hend : atLineEnd (d :: (cs ++ (w.flatMap doubleChar ++ tail))) = false := by
          rw [List.all_cons, Bool.and_eq_true, Bool.and_eq_true, Bool.not_eq_true'] at hcs
          exact hcs.1.2
        have hskip : (⟨'\\' :: d :: (cs ++ (w.flatMap doubleChar ++ tail)), m⟩ : Cursor).skip
            (cs.length + 1 + 1) =
            ⟨w.flatMap doubleChar ++ tail, m.after ('\\' :: d :: cs)⟩ :=
          Cursor.skip_append m ('\\' :: d :: cs) _
        simp only [List.length_cons] at hf
        have hword := hrest (m.after ('\\' :: d :: cs)) (by omega)
        have hescaped := hescape (w.flatMap doubleChar ++ tail)
        simp only [List.cons_append, List.append_assoc, Mark.after_cons] at hescaped hskip hword ⊢
        rw [doubleWord]
        simp [hslash, hend, hescaped, hskip, hword]

/-- A word without spaces is coded by escaping its characters. -/
theorem codes_double {w : List Char} (h : ∀ c ∈ w, c ≠ ' ') :
    Quote.double.Codes (w.flatMap doubleChar) w where
  any_isBreak := by
    rw [List.any_flatMap, List.any_eq_false]
    intro c _
    simp [(doubleCode c).any_isBreak]
  word? fuel m tail hf ht := by
    rw [Quote.word?, doubleWord_append h m hf ht]

theorem flatMap_doubleChar_pad (n : Nat) : (pad n).flatMap doubleChar = pad n := by
  have hspace : doubleChar ' ' = [' '] := rfl
  rw [pad, List.flatMap_replicate, hspace]
  simp

/-- No white space starts the code of a text that does not start with a space. -/
theorem not_isWhite_doubleChar {cs : List Char} (h : ∀ c, cs.head? = some c → c ≠ ' ') :
    ∀ d, (cs.flatMap doubleChar).head? = some d → isWhite d = false := by
  intro d hd
  cases cs with
  | nil => cases hd
  | cons c cs =>
    have hcode := doubleCode c
    rw [List.flatMap_cons] at hd
    generalize doubleChar c = code at hcode hd
    cases hcode with
    | self hc =>
      obtain rfl : c = d := by simpa using hd
      simp [isWhite_of_isPrintable hc, h c rfl]
    | escape =>
      obtain rfl : '\\' = d := by simpa using hd
      decide

/-- What stands between double quotes spells the text. -/
theorem spells_double (cs : List Char) : Quote.double.Spells (cs.flatMap doubleChar) cs := by
  induction hn : cs.length using Nat.strongRecOn generalizing cs with
  | ind n ih =>
    obtain ⟨w, rest, rfl, hw, hrest⟩ := Text.exists_run (· ≠ ' ') cs
    have hcodes := codes_double (w := w) (by simpa using hw)
    rw [List.flatMap_append]
    cases rest with
    | nil => simpa using Quote.Spells.word hcodes
    | cons c rest =>
      have hspace : c = ' ' := by simpa using hrest c rfl
      obtain ⟨k, behind, rfl, hbehind⟩ := exists_pad rest
      subst hspace
      have hwhite := not_isWhite_doubleChar hbehind
      simp only [List.length_append, List.length_cons, length_pad] at hn
      have hspells := ih behind.length (by omega) behind rfl
      have htext := Quote.Spells.gap hcodes (isGap_pad k) hwhite hspells
      rw [foldGap_of_no_break (any_isBreak_pad _)] at htext
      rw [← List.cons_append, ← pad_succ, List.flatMap_append, flatMap_doubleChar_pad]
      simpa using htext

/-- A text between double quotes is read back. -/
theorem doubleText_append (cs : List Char) {rest : List Char} (hr : rest.head? ≠ some '"')
    {fuel : Nat} (hf : (doubleText cs).length ≤ fuel) (m : Mark) :
    quoted? .double fuel ⟨doubleText cs ++ rest, m⟩ =
      some (cs, ⟨rest, m.after (doubleText cs)⟩) := by
  rw [doubleText, List.length_append, List.length_cons, List.length_singleton] at hf
  rw [doubleText]
  exact (spells_double cs).quoted? hr hf m

end ManifestBundle.Yaml
