import ManifestBundle.Proofs.Yaml.Cursor
import ManifestBundle.Yaml.Printer
import ManifestBundle.Yaml.Token.BlockScalar

/-!
# Reading back a literal block

A literal block is read line by line. The line breaks of empty lines are taken
together with the indentation of the line behind them (`emptyLines_append`), so each
step of `blockLines` is a line and the run of line breaks at its end; the last run is
what the chomping is about. The header asks for the chomping that keeps this run
(`exists_chomping`), and says where the lines start if their own first characters would
be mistaken for indentation. So the text is read back, with the indentation of what
follows (`literalText_append`).
-/

namespace ManifestBundle.Yaml

/-! ## Empty lines -/

/-- Of the spaces in front of a line those up to the column `n` are taken. -/
theorem taken_spaces {n j : Nat} {rest : List Char} (hj : j ≤ n)
    (hrest : ∀ c, rest.head? = some c → isBlank c → j = n) :
    min ((pad j ++ rest).takeWhile (· = ' ')).length n = j := by
  have hpad : ∀ c ∈ pad j, decide (c = ' ') = true := by simp [pad]
  rw [List.takeWhile_append_of_pos hpad, List.length_append, length_pad]
  by_cases hspace : rest.head? = some ' '
  · have := hrest ' ' hspace (by decide)
    omega
  · have hnil : rest.takeWhile (· = ' ') = [] := by
      cases rest <;> simp_all
    rw [hnil, List.length_nil]
    omega

/-- Line breaks and the indentation behind them, which ends at the column of the block,
    or in front of a character that is no white space. -/
theorem emptyLines_append {n j : Nat} {breaks rest : List Char} (hbreaks : breaks.all isBreak)
    (hj : j ≤ n) (hrest : ∀ c, rest.head? = some c → isBreak c = false ∧ (isBlank c → j = n))
    {fuel : Nat} {m : Mark} (hf : breaks.length < fuel) (hm : m.column = 0) :
    ∃ reached, emptyLines (some n) fuel ⟨breaks ++ (pad j ++ rest), m⟩ =
      some (breaks, reached, ⟨rest, m.after (breaks ++ pad j)⟩) := by
  induction breaks generalizing fuel m with
  | nil =>
    obtain ⟨fuel, rfl⟩ := Nat.exists_eq_succ_of_ne_zero (Nat.ne_of_gt hf)
    have htaken := taken_spaces hj fun c hc => (hrest c hc).2
    have hskip : (⟨pad j ++ rest, m⟩ : Cursor).skip j = ⟨rest, m.after (pad j)⟩ := by
      simpa using Cursor.skip_append m (pad j) rest
    have hcolumn : (m.after (pad j)).column = j := by
      simp [Mark.column_after_of_no_break, hm]
    rw [List.nil_append, emptyLines]
    simp only [Cursor.column, hm, Nat.sub_zero, htaken, hskip, hcolumn]
    cases rest with
    | nil => exact ⟨j, rfl⟩
    | cons c rest =>
      -- A tab may not stand in front of the column.
      have hshort : (decide (j < n) && decide (c = '\t')) = false := by
        by_cases hc : c = '\t'
        · have := (hrest c rfl).2 (by simp [hc, isBlank])
          simp [this]
        · simp [hc]
      exact ⟨j, by simp [hshort, hrest c rfl]⟩
  | cons c breaks ih =>
    obtain ⟨fuel, rfl⟩ := Nat.exists_eq_succ_of_ne_zero (Nat.ne_of_gt (Nat.zero_lt_of_lt hf))
    rw [List.all_cons, Bool.and_eq_true] at hbreaks
    have hblank := not_isBlank_of_isBreak hbreaks.1
    simp only [isBlank, Bool.or_eq_false_iff, decide_eq_false_iff_not] at hblank
    have hnext : (m.next c).column = 0 := Mark.column_next_of_break m hbreaks.1
    obtain ⟨reached, hread⟩ := ih hbreaks.2 (Nat.lt_of_succ_lt_succ hf) hnext
    refine ⟨max 0 reached, ?_⟩
    rw [emptyLines]
    simp [Cursor.column, hm, hblank, hbreaks.1, Cursor.skip, Cursor.next, hread]

/-! ## Indented lines -/

/-- Nothing is indented within a line. -/
theorem indentLines_line {n : Nat} {line : List Char} (hline : line.any isBreak = false)
    (cs : List Char) : indentLines n false (line ++ cs) = line ++ indentLines n false cs := by
  induction line with
  | nil => rfl
  | cons c line ih =>
    rw [List.any_cons, Bool.or_eq_false_iff] at hline
    rw [List.cons_append, indentLines, ih hline.2]
    simp [hline.1]

/-- Empty lines are not indented. -/
theorem indentLines_breaks {n : Nat} {breaks : List Char} (hbreaks : breaks.all isBreak)
    (cs : List Char) : indentLines n true (breaks ++ cs) = breaks ++ indentLines n true cs := by
  induction breaks with
  | nil => rfl
  | cons c breaks ih =>
    rw [List.all_cons, Bool.and_eq_true] at hbreaks
    rw [List.cons_append, indentLines, ih hbreaks.2, if_pos hbreaks.1]
    rfl

theorem indentLines_break {n : Nat} {c : Char} (hc : isBreak c) (lineStart : Bool)
    (cs : List Char) : indentLines n lineStart (c :: cs) = c :: indentLines n true cs := by
  rw [indentLines, if_pos hc]

/-- A line that is not empty is indented. -/
theorem indentLines_indented {n : Nat} {c : Char} (hc : isBreak c = false) (cs : List Char) :
    indentLines n true (c :: cs) = pad n ++ indentLines n false (c :: cs) := by
  simp [indentLines, hc]

theorem head_indentLines {n : Nat} {c : Char} (hc : isBreak c = false) (cs tail : List Char) :
    (indentLines n false (c :: cs) ++ tail).head? = some c := by
  rw [indentLines, if_neg (by simp [hc])]
  rfl

/-! ## Lines -/

/-- The line break that is put behind a text that does not end with one. -/
def lastBreak (cs : List Char) : List Char :=
  if cs.getLast?.any isBreak then [] else ['\n']

/-- A text is ended by a line break, if it does not end with one. -/
theorem endLine_eq (cs : List Char) : endLine cs = cs ++ lastBreak cs := by
  rw [endLine, lastBreak]
  split <;> simp

theorem lastBreak_append (cs : List Char) (c : Char) (ds : List Char) :
    lastBreak (cs ++ c :: ds) = lastBreak (c :: ds) := by
  rw [lastBreak, lastBreak, List.getLast?_append_cons]

theorem lastBreak_of_breaks {breaks : List Char} (hne : breaks ≠ []) (h : breaks.all isBreak) :
    lastBreak breaks = [] := by
  obtain ⟨run, c, rfl⟩ := (List.eq_nil_or_concat' breaks).resolve_left hne
  have hc : isBreak c := List.all_eq_true.1 h c (List.mem_append_right _ List.mem_cons_self)
  simp [lastBreak, hc]

/-- The chomping keeps these line breaks at the end of a text. -/
def Chomping.Keeps : Chomping → List Char → Prop
  | .strip, breaks => breaks = []
  | .clip, breaks => breaks.length = 1
  | .keep, breaks => breaks ≠ []

/-- The chomping keeps the line breaks at the end of the text. -/
def Chomping.Fits (chomping : Chomping) (cs : List Char) : Prop :=
  ∀ line c breaks, cs = line ++ c :: breaks → isBreak c = false → breaks.all isBreak →
    chomping.Keeps breaks

theorem Chomping.Fits.right {chomping : Chomping} {cs ds : List Char}
    (h : chomping.Fits (cs ++ ds)) : chomping.Fits ds := by
  rintro line c breaks rfl
  exact h (cs ++ line) c breaks (List.append_assoc _ _ _).symm

/-- A line and the line breaks behind it are read in one step. -/
theorem blockLines_line (chomping : Chomping) {n j : Nat} {line breaks rest : List Char} {b : Char}
    (hne : line ≠ []) (hline : line.any isBreak = false) (hb : isBreak b)
    (hbreaks : breaks.all isBreak) (hj : j ≤ n)
    (hrest : ∀ c, rest.head? = some c → isBreak c = false ∧ (isBlank c → j = n))
    {fuel : Nat} (hf : breaks.length < fuel) (seam : BlockScalar.Seam) {m : Mark}
    (hm : m.column = n) :
    ∃ afterBlank, blockLines false chomping n (fuel + 1) seam
        ⟨line ++ b :: breaks ++ (pad j ++ rest), m⟩ =
      (blockLines false chomping n fuel ⟨[b], breaks, afterBlank⟩
        ⟨rest, m.after (line ++ b :: breaks ++ pad j)⟩).map fun (text, k) =>
          (seam.lineBreak ++ seam.emptyBreaks ++ line ++ text, k) := by
  have hcolumn : ((m.after line).next b).column = 0 := Mark.column_next_of_break _ hb
  obtain ⟨reached, hempty⟩ := emptyLines_append hbreaks hj hrest hf hcolumn
  have hspan : (⟨line ++ b :: (breaks ++ (pad j ++ rest)), m⟩ : Cursor).span (!isBreak ·) =
      (line, ⟨b :: (breaks ++ (pad j ++ rest)), m.after line⟩) := by
    refine Cursor.span_run m ?_ ?_
    · simpa using hline
    · rintro _ ⟨⟩
      simp [hb]
  refine ⟨(line ++ b :: (breaks ++ (pad j ++ rest))).head?.any isBlank, ?_⟩
  rw [List.append_assoc, List.cons_append, blockLines]
  simp only [Cursor.column, hm, ne_eq, not_true_eq_false, decide_false, Bool.false_or, hspan,
    Cursor.next_cons, hempty, Option.bind_eq_bind, Option.bind_some]
  rw [if_neg (by simp [hne]), Option.map_eq_bind]
  simp only [List.take_succ_cons, List.take_zero, List.append_assoc, List.cons_append,
    Mark.after_append, Mark.after_cons, BlockScalar.Seam.text, Bool.false_and, Bool.false_eq_true,
    if_false]
  rfl

/-- A line that does not stand at the column of the block ends it. -/
theorem blockLines_end {chomping : Chomping} {n : Nat} {k : Cursor} (hk : k.column ≠ n)
    {fuel : Nat} (hf : 0 < fuel) (seam : BlockScalar.Seam) :
    blockLines false chomping n fuel seam k = some (seam.tail chomping, k) := by
  obtain ⟨fuel, rfl⟩ := Nat.exists_eq_succ_of_ne_zero (Nat.ne_of_gt hf)
  rw [blockLines]
  simp [hk]

theorem Chomping.Keeps.tail_nil {chomping : Chomping} (h : chomping.Keeps []) (b : Char)
    (afterBlank : Bool) : BlockScalar.Seam.tail ⟨[b], [], afterBlank⟩ chomping = [] := by
  cases chomping with
  | strip => rfl
  | clip => cases h
  | keep => exact absurd rfl h

theorem Chomping.Keeps.tail_cons {chomping : Chomping} {b : Char} {breaks : List Char}
    (h : chomping.Keeps (b :: breaks)) (afterBlank : Bool) :
    BlockScalar.Seam.tail ⟨[b], breaks, afterBlank⟩ chomping = b :: breaks := by
  cases chomping with
  | strip => cases h
  | clip =>
    obtain rfl : breaks = [] := List.length_eq_zero_iff.1 (Nat.succ.inj h)
    rfl
  | keep => rfl

theorem StartsToken.not_blank {rest : List Char} (h : StartsToken rest) {c n : Nat} :
    ∀ d, rest.head? = some d → isBreak d = false ∧ (isBlank d → c = n) := by
  intro d hd
  have := (h d hd).1
  simp_all [isWhite]

/-- The last line is read with the line breaks that the chomping keeps. -/
theorem blockLines_last {chomping : Chomping} {n c : Nat} {line breaks rest kept : List Char}
    {b : Char} (hne : line ≠ []) (hline : line.any isBreak = false) (hb : isBreak b)
    (hbreaks : breaks.all isBreak) (hc : c < n) (hrest : StartsToken rest)
    (hkept : ∀ blank, BlockScalar.Seam.tail ⟨[b], breaks, blank⟩ chomping = kept) {fuel : Nat}
    (hf : breaks.length < fuel) (seam : BlockScalar.Seam) {m : Mark} (hm : m.column = n) :
    blockLines false chomping n (fuel + 1) seam ⟨line ++ b :: breaks ++ (pad c ++ rest), m⟩ =
      some (seam.lineBreak ++ seam.emptyBreaks ++ line ++ kept,
        ⟨rest, m.after (line ++ b :: breaks ++ pad c)⟩) := by
  obtain ⟨blank, hread⟩ := blockLines_line chomping hne hline hb hbreaks (Nat.le_of_lt hc)
    hrest.not_blank hf seam hm
  have hall : (b :: breaks).all isBreak := by simp [hb, hbreaks]
  have hcolumn : (m.after (line ++ b :: breaks ++ pad c)).column = c := by
    rw [List.append_assoc, Mark.after_append,
      Mark.column_after_breaks _ (List.cons_ne_nil b breaks) hall (any_isBreak_pad c), length_pad]
  have hend : (⟨rest, m.after (line ++ b :: breaks ++ pad c)⟩ : Cursor).column ≠ n := by
    rw [Cursor.column, hcolumn]
    omega
  rw [hread, blockLines_end hend (Nat.zero_lt_of_lt hf), hkept]
  rfl

/-- The lines of a text are read back, up to a line that stands further left. -/
theorem blockLines_append {chomping : Chomping} {n c : Nat} {rest : List Char} (hc : c < n)
    (hrest : StartsToken rest) {cs : List Char} (hfits : chomping.Fits cs)
    (hcs : cs.head?.any fun d => !isBreak d) {fuel : Nat} (hf : cs.length + 1 < fuel)
    (seam : BlockScalar.Seam) {m : Mark} (hm : m.column = n) :
    blockLines false chomping n fuel seam
        ⟨indentLines n false cs ++ lastBreak cs ++ (pad c ++ rest), m⟩ =
      some (seam.lineBreak ++ seam.emptyBreaks ++ cs,
        ⟨rest, m.after (indentLines n false cs ++ lastBreak cs ++ pad c)⟩) := by
  induction hlen : cs.length using Nat.strongRecOn generalizing cs fuel seam m with
  | ind len ih =>
    obtain ⟨line, more, rfl, hall, hmore⟩ := Text.exists_run (!isBreak ·) cs
    have hline : line.any isBreak = false := by simpa [List.any_eq_false] using hall
    have hne : line ≠ [] := by
      rintro rfl
      cases more with
      | nil => simp at hcs
      | cons d more => simp [hmore d rfl] at hcs
    obtain ⟨init, e, rfl⟩ := (List.eq_nil_or_concat' line).resolve_left hne
    have he : isBreak e = false := by simp_all
    obtain ⟨fuel, rfl⟩ := Nat.exists_eq_succ_of_ne_zero (Nat.ne_of_gt (Nat.zero_lt_of_lt hf))
    simp only [List.length_append, List.length_singleton] at hf hlen
    cases more with
    | nil =>
      -- The text ends with the line.
      have hlast : lastBreak (init ++ [e] ++ []) = ['\n'] := by simp [lastBreak, he]
      have hkeeps := hfits init e [] (by simp) he rfl
      rw [indentLines_line hline, hlast, indentLines, List.append_nil]
      exact (blockLines_last hne hline isBreak_newline rfl hc hrest
        (hkeeps.tail_nil '\n') (by simp; omega) seam hm).trans (by simp)
    | cons b more =>
      have hb : isBreak b := by simpa using hmore b rfl
      obtain ⟨breaks, next, rfl, hbreaks, hnext⟩ := Text.exists_run isBreak more
      simp only [List.length_append, List.length_cons] at hf hlen
      rw [indentLines_line hline, indentLines_break hb, indentLines_breaks hbreaks]
      cases next with
      | nil =>
        -- The text ends with line breaks.
        have hall : (b :: breaks).all isBreak := by simp [hb, hbreaks]
        have hkeeps := hfits init e (b :: breaks) (by simp) he hall
        rw [List.append_nil, lastBreak_append, lastBreak_of_breaks (List.cons_ne_nil b breaks) hall,
          indentLines, List.append_nil, List.append_nil]
        exact (blockLines_last hne hline hb hbreaks hc hrest hkeeps.tail_cons
          (by omega) seam hm).trans (by simp)
      | cons d next =>
        -- A further line follows.
        have hd : isBreak d = false := hnext d rfl
        have hbehind : ∀ x, (indentLines n false (d :: next) ++ lastBreak (d :: next) ++
            (pad c ++ rest)).head? = some x → isBreak x = false ∧ (isBlank x → n = n) := by
          intro x hx
          rw [List.append_assoc, head_indentLines hd] at hx
          obtain rfl : d = x := Option.some.inj hx
          exact ⟨hd, fun _ => rfl⟩
        have hright : chomping.Fits (d :: next) := by
          have hsplit : init ++ [e] ++ b :: (breaks ++ d :: next) =
              init ++ [e] ++ b :: breaks ++ d :: next := by
            simp
          exact (hsplit ▸ hfits).right
        obtain ⟨blank, hread⟩ := blockLines_line chomping hne hline hb hbreaks (Nat.le_refl n)
          hbehind (by omega : breaks.length < fuel) seam hm
        have hcolumn : (m.after (init ++ [e] ++ b :: breaks ++ pad n)).column = n := by
          have hall : (b :: breaks).all isBreak := by simp [hb, hbreaks]
          rw [List.append_assoc, Mark.after_append,
            Mark.column_after_breaks _ (List.cons_ne_nil b breaks) hall (any_isBreak_pad n),
            length_pad]
        have hshort : (d :: next).length + 1 < fuel := by omega
        have hnext := ih (d :: next).length (by omega) hright (by simp [hd]) hshort
          ⟨[b], breaks, blank⟩ hcolumn rfl
        rw [hnext, Option.map_some] at hread
        have hlast : lastBreak (init ++ [e] ++ b :: (breaks ++ d :: next)) =
            lastBreak (d :: next) := by
          rw [← List.cons_append, ← List.append_assoc, lastBreak_append]
        rw [hlast, indentLines_indented hd]
        simpa using hread

/-! ## The header -/

/-- The character that asks for a chomping. -/
def Chomping.mark : Chomping → List Char
  | .strip => ['-']
  | .clip => []
  | .keep => ['+']

/-- The first characters of the text would be mistaken for indentation. -/
def needsHint (cs : List Char) : Bool :=
  cs.head?.any fun c => c = ' ' || isBreak c

/-- The last character of a text is the given one, or it is the last one behind that. -/
theorem concat_eq_append_cons {init line more : List Char} {e c : Char}
    (h : init ++ [e] = line ++ c :: more) : (more = [] ∧ init = line ∧ e = c) ∨
      ∃ more', more = more' ++ [e] ∧ init = line ++ c :: more' := by
  rcases List.eq_nil_or_concat' more with rfl | ⟨more', b, rfl⟩
  · obtain ⟨hinit, he⟩ := List.append_inj' h rfl
    exact .inl ⟨rfl, hinit, (List.cons.inj he).1⟩
  · have hsplit : init ++ [e] = line ++ c :: more' ++ [b] := by simp [h]
    obtain ⟨hinit, he⟩ := List.append_inj' hsplit rfl
    obtain rfl : e = b := (List.cons.inj he).1
    exact .inr ⟨more', rfl, hinit⟩

/-- The header asks for the chomping that keeps the line breaks at the end of the text. -/
theorem exists_chomping {cs : List Char} (h : cs ≠ []) : ∃ chomping : Chomping,
    literalHeader cs = '|' :: ((if needsHint cs then ['2'] else []) ++ chomping.mark) ∧
      chomping.Fits cs ∧ (cs.all isBreak → chomping = .keep) := by
  obtain ⟨init, e, rfl⟩ := (List.eq_nil_or_concat' cs).resolve_left h
  rw [literalHeader]
  simp only [List.reverse_append, List.reverse_singleton, List.singleton_append]
  by_cases he : isBreak e
  · by_cases hinit : init.reverse.isEmpty || init.reverse.head?.any isBreak
    · -- Empty lines stand at the end.
      refine ⟨.keep, ?_, ?_, fun _ => rfl⟩
      · simp only [he, hinit, Bool.not_true, Bool.false_eq_true, if_false, if_true]
        rfl
      · rintro line c breaks hsplit hc - rfl
        rcases concat_eq_append_cons hsplit with ⟨-, -, rfl⟩ | ⟨more, hmore, -⟩
        · exact absurd he (by simp [hc])
        · simp at hmore
    · -- The last line break stands behind a character of the last line.
      rw [Bool.or_eq_true, not_or, Bool.not_eq_true, Bool.not_eq_true] at hinit
      obtain ⟨start, d, rfl⟩ : ∃ start d, init = start ++ [d] := by
        refine (List.eq_nil_or_concat' init).resolve_left ?_
        rintro rfl
        simp at hinit
      have hd : isBreak d = false := by simpa using hinit.2
      refine ⟨.clip, by simp [he, hd, Chomping.mark, needsHint], ?_, by simp [hd]⟩
      rintro line c breaks hsplit hc hbreaks
      rcases concat_eq_append_cons hsplit with ⟨-, -, rfl⟩ | ⟨more, rfl, hstart⟩
      · exact absurd he (by simp [hc])
      · rcases concat_eq_append_cons hstart with ⟨rfl, -, -⟩ | ⟨more, rfl, -⟩
        · rfl
        · simp [hd] at hbreaks
  · -- No line break stands at the end.
    refine ⟨.strip, by simp [he, Chomping.mark, needsHint], ?_, by simp [he]⟩
    rintro line c breaks hsplit hc hbreaks
    rcases concat_eq_append_cons hsplit with ⟨rfl, -, -⟩ | ⟨more, rfl, -⟩
    · rfl
    · simp [he] at hbreaks

/-- What is read past a header: empty lines, and the lines of the text. Without a hint the
    first of these tells their column, which is the least one at least. -/
def blockBody? (hint : Option Nat) (chomping : Chomping) (least fuel : Nat) (k : Cursor) :
    Option (List Char × Cursor) :=
  (emptyLines hint fuel k).bind fun (breaks, reached, k) =>
    blockLines false chomping (hint.getD (max reached least)) fuel { emptyBreaks := breaks } k

/-- The header of a block tells how far it is indented and what becomes of line breaks at its
    end. -/
theorem blockScalar?_header (hint : Bool) (chomping : Chomping) (margin fuel : Nat)
    (body : List Char) (m : Mark) :
    blockScalar? false margin fuel
        ⟨'|' :: ((if hint then ['2'] else []) ++ chomping.mark) ++ '\n' :: body, m⟩ =
      blockBody? (if hint then some (margin - 1 + 2) else none) chomping (max margin 1) fuel
        ⟨body, m.after ('|' :: ((if hint then ['2'] else []) ++ chomping.mark) ++ ['\n'])⟩ := by
  cases hint <;> cases chomping <;> rfl

theorem emptyLines_none (n : Nat) {rest : List Char} (hrest : rest.head?.any fun c => !isWhite c)
    {fuel : Nat} (hf : 0 < fuel) {m : Mark} (hm : m.column = 0) :
    emptyLines none fuel ⟨pad n ++ rest, m⟩ = some ([], n, ⟨rest, m.after (pad n)⟩) := by
  obtain ⟨fuel, rfl⟩ := Nat.exists_eq_succ_of_ne_zero (Nat.ne_of_gt hf)
  cases rest with
  | nil => simp at hrest
  | cons d rest =>
    have hd : isWhite d = false := by simpa using hrest
    simp only [isWhite, isBlank, Bool.or_eq_false_iff, decide_eq_false_iff_not] at hd
    have hspaces : ((pad n ++ d :: rest).takeWhile (· = ' ')).length = n := by
      rw [Text.takeWhile_run (by simp [pad]) (by rintro _ ⟨⟩; simp [hd.1.1]), length_pad]
    have hskip : (⟨pad n ++ d :: rest, m⟩ : Cursor).skip n = ⟨d :: rest, m.after (pad n)⟩ := by
      simpa using Cursor.skip_append m (pad n) (d :: rest)
    rw [emptyLines]
    simp [hspaces, hskip, hd, Cursor.column, Mark.column_after_of_no_break, hm]

theorem getLast?_indentLines (n : Nat) (lineStart : Bool) (cs : List Char) :
    (indentLines n lineStart cs).getLast? = cs.getLast? := by
  induction cs generalizing lineStart with
  | nil => rfl
  | cons c cs ih =>
    rw [indentLines]
    split <;> simp [ih, List.getLast?_cons]

/-! ## Literal blocks -/

/-- A block is its header, its lines and a line break. -/
theorem endLine_literalText {n : Nat} {cs : List Char} (h : cs ≠ []) :
    endLine (literalText n cs) =
      literalHeader cs ++ '\n' :: (indentLines n true cs ++ lastBreak cs) := by
  obtain ⟨c, ds, rfl⟩ := List.exists_cons_of_ne_nil h
  have hlast : lastBreak ('\n' :: indentLines n true (c :: ds)) = lastBreak (c :: ds) := by
    rw [lastBreak, lastBreak, List.getLast?_cons, getLast?_indentLines, List.getLast?_cons]
    rfl
  rw [endLine_eq, literalText, lastBreak_append, hlast, List.append_assoc, List.cons_append]

/-- All of the text are line breaks, and what follows stands further left. -/
theorem blockBody?_breaks {n c least : Nat} {rest : List Char} (hc : c < n)
    (hrest : StartsToken rest) {breaks : List Char} (hne : breaks ≠ [])
    (hbreaks : breaks.all isBreak) {fuel : Nat} (hf : breaks.length < fuel) {m : Mark}
    (hm : m.column = 0) :
    blockBody? (some n) .keep least fuel ⟨breaks ++ (pad c ++ rest), m⟩ =
      some (breaks, ⟨rest, m.after (breaks ++ pad c)⟩) := by
  obtain ⟨reached, hread⟩ := emptyLines_append hbreaks (Nat.le_of_lt hc) hrest.not_blank hf hm
  have hcolumn : (m.after (breaks ++ pad c)).column = c := by
    rw [Mark.column_after_breaks m hne hbreaks (any_isBreak_pad c), length_pad]
  have hend : (⟨rest, m.after (breaks ++ pad c)⟩ : Cursor).column ≠ n := by
    rw [Cursor.column, hcolumn]
    omega
  rw [blockBody?, hread, Option.bind_some]
  simp only [Option.getD_some]
  rw [blockLines_end hend (Nat.zero_lt_of_lt hf)]
  rfl

/-- Line breaks and indented lines behind them. The header tells the column. -/
theorem blockBody?_hint {n c least : Nat} {rest : List Char} (hc : c < n)
    (hrest : StartsToken rest) {chomping : Chomping} {breaks next : List Char} {d : Char}
    (hfits : chomping.Fits (d :: next)) (hbreaks : breaks.all isBreak) (hd : isBreak d = false)
    {fuel : Nat} (hf : breaks.length + (d :: next).length + 1 < fuel) {m : Mark}
    (hm : m.column = 0) :
    blockBody? (some n) chomping least fuel ⟨breaks ++ (pad n ++ indentLines n false (d :: next)) ++
        lastBreak (d :: next) ++ (pad c ++ rest), m⟩ =
      some (breaks ++ d :: next, ⟨rest, m.after (breaks ++
        (pad n ++ indentLines n false (d :: next)) ++ lastBreak (d :: next) ++ pad c)⟩) := by
  have hcolumn : (m.after (breaks ++ pad n)).column = n := by
    cases breaks with
    | nil => simp [Mark.column_after_of_no_break, hm]
    | cons b more =>
      rw [Mark.column_after_breaks m (List.cons_ne_nil b more) hbreaks (any_isBreak_pad n),
        length_pad]
  have hread := blockLines_append hc hrest hfits (by simp [hd])
    (by omega : (d :: next).length + 1 < fuel) { emptyBreaks := breaks } hcolumn
  have hbehind : ∀ x, (indentLines n false (d :: next) ++ (lastBreak (d :: next) ++
      (pad c ++ rest))).head? = some x → isBreak x = false ∧ (isBlank x → n = n) := by
    intro x hx
    rw [head_indentLines hd] at hx
    obtain rfl : d = x := Option.some.inj hx
    exact ⟨hd, fun _ => rfl⟩
  obtain ⟨reached, hempty⟩ := emptyLines_append hbreaks (Nat.le_refl n) hbehind
    (by omega : breaks.length < fuel) hm
  simp only [List.append_assoc] at hread ⊢
  rw [blockBody?, hempty, Option.bind_some]
  simpa using hread

/-- Indented lines of which the first one tells the column. -/
theorem blockBody?_line {n c least : Nat} {rest : List Char} (hc : c < n) (hleast : least ≤ n)
    (hrest : StartsToken rest) {chomping : Chomping} {next : List Char} {d : Char}
    (hfits : chomping.Fits (d :: next)) (hd : isBreak d = false) (hblank : isBlank d = false)
    {fuel : Nat} (hf : (d :: next).length + 1 < fuel) {m : Mark} (hm : m.column = 0) :
    blockBody? none chomping least fuel ⟨pad n ++ indentLines n false (d :: next) ++
        lastBreak (d :: next) ++ (pad c ++ rest), m⟩ =
      some (d :: next, ⟨rest, m.after (pad n ++ indentLines n false (d :: next) ++
        lastBreak (d :: next) ++ pad c)⟩) := by
  have hcolumn : (m.after (pad n)).column = n := by
    simp [Mark.column_after_of_no_break, hm]
  have hread := blockLines_append hc hrest hfits (by simp [hd]) hf {} hcolumn
  have hbehind : (indentLines n false (d :: next) ++ (lastBreak (d :: next) ++
      (pad c ++ rest))).head?.any fun c => !isWhite c := by
    simp [head_indentLines hd, isWhite, hd, hblank]
  have hempty := emptyLines_none n hbehind (Nat.zero_lt_of_lt hf) hm
  simp only [List.append_assoc] at hread ⊢
  rw [blockBody?, hempty, Option.bind_some]
  simpa [Nat.max_eq_left hleast] using hread

/-- Past the header the empty lines and then the others are read back. -/
theorem literalBody_append {n c least : Nat} {rest : List Char} (hc : c < n)
    (hleast : least ≤ n) (hrest : StartsToken rest) {chomping : Chomping} {cs : List Char}
    (hfits : chomping.Fits cs)
    (hkeep : cs.all isBreak → chomping = .keep) (hprint : cs.all isPrintable) (hne : cs ≠ [])
    {fuel : Nat} (hf : cs.length + 1 < fuel) {m : Mark} (hm : m.column = 0) :
    blockBody? (if needsHint cs then some n else none) chomping least fuel
        ⟨indentLines n true cs ++ lastBreak cs ++ (pad c ++ rest), m⟩ =
      some (cs, ⟨rest, m.after (indentLines n true cs ++ lastBreak cs ++ pad c)⟩) := by
  obtain ⟨breaks, next, rfl, hbreaks, hnext⟩ := Text.exists_run isBreak cs
  rw [indentLines_breaks hbreaks]
  cases next with
  | nil =>
    rw [List.append_nil] at hne hkeep hf ⊢
    obtain rfl := hkeep hbreaks
    have hhint : needsHint breaks := by
      obtain ⟨b, more, rfl⟩ := List.exists_cons_of_ne_nil hne
      simp_all [needsHint]
    rw [if_pos hhint, lastBreak_of_breaks hne hbreaks, indentLines, List.append_nil,
      List.append_nil]
    exact blockBody?_breaks hc hrest hne hbreaks (Nat.lt_of_succ_lt hf) hm
  | cons d next =>
    have hd : isBreak d = false := hnext d rfl
    rw [indentLines_indented hd, lastBreak_append]
    rw [List.length_append] at hf
    by_cases hhint : needsHint (breaks ++ d :: next)
    · rw [if_pos hhint]
      exact blockBody?_hint hc hrest hfits.right hbreaks hd hf hm
    · obtain rfl : breaks = [] := by
        cases breaks with
        | nil => rfl
        | cons b more => simp_all [needsHint]
      have hspace : d ≠ ' ' := by
        rintro rfl
        exact hhint rfl
      have htab : d ≠ '\t' := by
        rintro rfl
        simp [isPrintable] at hprint
      rw [if_neg hhint]
      exact blockBody?_line hc hleast hrest hfits hd (by simp [isBlank, hspace, htab])
        (by simpa using hf) hm

/-- A literal block is read back, with the indentation of what follows. -/
theorem literalText_append {margin c : Nat} {cs rest : List Char} (hmargin : 0 < margin)
    (hprint : cs.all isPrintable) (hne : cs ≠ []) (hc : c < margin) (hrest : StartsToken rest)
    {fuel : Nat} (hf : cs.length + 1 < fuel) (m : Mark) :
    blockScalar? false margin fuel
        ⟨endLine (literalText (margin + 1) cs) ++ (pad c ++ rest), m⟩ =
      some (cs, ⟨rest, m.after (endLine (literalText (margin + 1) cs) ++ pad c)⟩) := by
  obtain ⟨chomping, hheader, hfits, hkeep⟩ := exists_chomping hne
  have hindent : margin - 1 + 2 = margin + 1 := by omega
  have hleast : max margin 1 ≤ margin + 1 := by omega
  have hcolumn : (m.after ('|' :: ((if needsHint cs then ['2'] else []) ++ chomping.mark) ++
      ['\n'])).column = 0 := by
    rw [Mark.after_append, Mark.column_after_line _ isBreak_newline rfl, List.length_nil]
  have hread := literalBody_append (Nat.lt_succ_of_lt hc) hleast hrest hfits hkeep hprint hne hf
    hcolumn
  have hsplit (tail : List Char) : endLine (literalText (margin + 1) cs) ++ tail =
      '|' :: ((if needsHint cs then ['2'] else []) ++ chomping.mark) ++
        '\n' :: (indentLines (margin + 1) true cs ++ lastBreak cs ++ tail) := by
    rw [endLine_literalText hne, hheader]
    simp
  rw [hsplit, hsplit, blockScalar?_header (needsHint cs) chomping margin fuel _ m, hindent, hread]
  simp

end ManifestBundle.Yaml
