import ManifestBundle.Proofs.Yaml.ScalarText
import ManifestBundle.Proofs.Yaml.Token.Reading

/-!
# Reading back a scalar token

A text is read back as one scalar token, in whatever style it is written, and the lexer
is ready at the next line (`leads_text`). As the key in front of a colon it gets a `key`
token in front of it, and the start of a mapping if that starts at its column
(`leads_key`).
-/

namespace ManifestBundle.Yaml

/-- The token of a text. -/
def textToken (cs : List Char) : Token :=
  .scalar cs (ScalarStyle.of cs == .plain)

namespace Lexer

variable {k : Cursor} {m : Mark} {cs text gap rest tail : List Char} {output : List Token}
  {margin : Nat} {outer : List Nat} {allowed : Bool}

/-! ## The place of a key -/

/-- The place that a token takes which may start a key. -/
def placed (m : Mark) (output : List Token) (margin : Nat) (allowed : Bool) : Option KeyPlace :=
  if allowed then some ⟨m, output.length, margin == m.column + 1⟩ else none

theorem markKeyPlace?_ready : (ready k output margin outer allowed).markKeyPlace? =
    some (block k output margin outer allowed (placed k.mark output margin allowed)) := by
  cases allowed <;> rfl

/-- To the right of the column of a block collection no key is required. -/
theorem isPast_placed (hmargin : margin ≤ m.column) (hbreak : text.any isBreak) :
    IsPast (m.after text) (placed m output margin allowed) := by
  intro p hp
  have hne : (margin == m.column + 1) = false := by
    rw [beq_eq_false_iff_ne]
    omega
  cases allowed with
  | false => nomatch hp
  | true =>
    obtain rfl := Option.some.inj hp
    exact ⟨hne, m.line_lt_after hbreak⟩

/-! ## The first character -/

theorem atWhite_append (h : atWhite cs = false) (tail : List Char) :
    atWhite (cs ++ tail) = false := by
  cases cs with
  | nil => simp [atWhite] at h
  | cons c cs => exact h

/-- A plain scalar is told by its first characters. -/
theorem readInLine?_plain (hfits : fitsPlain cs) (hne : cs ≠ []) (fuel : Nat) :
    (ready ⟨cs ++ tail, m⟩ output margin outer allowed).readInLine? fuel =
      (ready ⟨cs ++ tail, m⟩ output margin outer allowed).readPlain? fuel := by
  obtain ⟨c, ds, rfl⟩ := List.exists_cons_of_ne_nil hne
  have hwhite : isWhite c = false := by simpa using head_of_fitsPlain hfits hne
  simp only [fitsPlain, Bool.and_eq_true, Bool.not_eq_true'] at hfits
  obtain ⟨⟨-, hstart⟩, -⟩ := hfits
  rw [startsAsIndicator] at hstart
  simp only [Bool.or_eq_false_iff] at hstart
  obtain ⟨⟨hflow, hlist⟩, hmark⟩ := hstart
  have hnext (hc : c = '-' ∨ c = '?' ∨ c = ':') : atWhite (ds ++ tail) = false := by
    refine atWhite_append ?_ tail
    rcases hc with rfl | rfl | rfl <;> simpa using hmark
  simp only [isFlowIndicator, List.contains_cons, List.contains_nil, Bool.or_false,
    Bool.or_eq_false_iff, decide_eq_false_iff_not, beq_eq_false_iff_ne] at hflow hlist
  -- A hyphen, a question mark and a colon start a plain scalar if no white space follows.
  by_cases hc : c = '-' ∨ c = '?' ∨ c = ':'
  · have hgoes := hnext hc
    have hplain : startsPlain false (c :: (ds ++ tail)) := by
      cases hds : ds ++ tail with
      | nil => simp [hds, atWhite] at hgoes
      | cons d rest =>
        rw [hds, atWhite, isWhite, Bool.or_eq_false_iff] at hgoes
        rcases hc with rfl | rfl | rfl <;> simp [startsPlain, atWhite, isWhite, hgoes]
    rcases hc with rfl | rfl | rfl <;> simp [readInLine?, ready, block, inFlow, hgoes, hplain]
  · rw [not_or, not_or] at hc
    have hplain : startsPlain false (c :: (ds ++ tail)) := by
      simp [startsPlain, isIndicator, isFlowIndicator, hwhite, hflow, hlist, hc]
    simp [readInLine?, ready, block, inFlow, hflow, hlist, hc, hplain]

/-- A quoted scalar is told by its quote. -/
theorem readInLine?_quoted {q : Quote} {body : List Char} (htext : text = q.char :: body)
    (fuel : Nat) :
    (ready ⟨text ++ tail, m⟩ output margin outer allowed).readInLine? fuel =
      (ready ⟨text ++ tail, m⟩ output margin outer allowed).readQuoted? q fuel := by
  subst htext
  cases q <;> rfl

/-! ## Reading -/

/-- A plain scalar is read together with what ends it. -/
theorem readInLine?_fitsPlain (hfits : fitsPlain cs) (hne : cs ≠ [])
    (hend : PlainEnd margin gap rest) (hm : margin ≤ m.column + 1) {fuel : Nat}
    (hf : (cs ++ (gap ++ rest)).length < fuel) :
    (ready ⟨cs ++ (gap ++ rest), m⟩ output margin outer allowed).readInLine? fuel =
      some (block ⟨rest, m.after (cs ++ gap)⟩ (.scalar cs true :: output) margin outer
        (gap.any isBreak) (placed m output margin allowed)) := by
  have hlen : cs.length ≤ fuel := by
    rw [List.length_append] at hf
    omega
  have hread := plain?_append hend hlen (plainPart_of_fitsPlain hfits)
    (head_of_fitsPlain hfits hne) hm
  rw [readInLine?_plain hfits hne, readPlain?, markKeyPlace?_ready]
  simp only [Option.bind_eq_bind, Option.bind_some]
  simp only [block, inFlow, List.isEmpty_nil, Bool.not_true, hread, Option.bind_some]
  rfl

/-- A quoted scalar is read up to its closing quote. -/
theorem readInLine?_closed {q : Quote} {body : List Char} (htext : text = q.char :: body)
    {fuel : Nat} (hread : quoted? q fuel ⟨text ++ tail, m⟩ = some (cs, ⟨tail, m.after text⟩)) :
    (ready ⟨text ++ tail, m⟩ output margin outer allowed).readInLine? fuel =
      some (block ⟨tail, m.after text⟩ (.scalar cs false :: output) margin outer false
        (placed m output margin allowed)) := by
  rw [readInLine?_quoted htext, readQuoted?, markKeyPlace?_ready]
  simp only [Option.bind_eq_bind, Option.bind_some]
  simp only [block, hread, Option.bind_some]
  rfl

/-- The text between quotes is read up to the closing one. -/
theorem readInLine?_inQuotes {indent : Nat} (hindent : 0 < indent)
    (hstyle : ScalarStyle.of cs = .single ∨ ScalarStyle.of cs = .double)
    (htail : ∀ q : Quote, tail.head? ≠ some q.char) {fuel : Nat}
    (hf : (scalarText indent cs ++ tail).length < fuel) :
    (ready ⟨scalarText indent cs ++ tail, m⟩ output margin outer allowed).readInLine? fuel =
      some (block ⟨tail, m.after (scalarText indent cs)⟩ (.scalar cs false :: output) margin outer
        false (placed m output margin allowed)) := by
  have hlen : (scalarText indent cs).length ≤ fuel := by
    rw [List.length_append] at hf
    omega
  rcases hstyle with h | h
  · have htext : scalarText indent cs = singleText indent cs := by rw [scalarText, h]
    rw [htext] at hlen ⊢
    exact readInLine?_closed (q := .single) rfl
      (singleText_append hindent (singlePart_of_single h) (htail .single) hlen m)
  · have htext : scalarText indent cs = doubleText cs := by rw [scalarText, h]
    rw [htext] at hlen ⊢
    exact readInLine?_closed (q := .double) rfl (doubleText_append cs (htail .double) hlen m)

/-! ## Scalars at the end of a line -/

theorem isPlainGap_line (c : Nat) : IsPlainGap ('\n' :: pad c) := by
  intro d hd
  rcases List.mem_cons.1 hd with rfl | hd
  · exact Or.inr rfl
  · exact Or.inl (List.eq_of_mem_replicate hd)

theorem any_isBreak_line (c : Nat) : ('\n' :: pad c).any isBreak := by
  rw [List.any_cons, isBreak_newline, Bool.true_or]

/-- A plain scalar at the end of a line. -/
theorem leads_plain (hfits : fitsPlain cs) (hne : cs ≠ []) (hcol : margin ≤ m.column)
    {c : Nat} (hc : c < margin) (hrest : StartsToken rest) :
    (ready ⟨cs ++ ('\n' :: pad c ++ rest), m⟩ output margin outer allowed).Leads
      (ready ⟨rest, m.after (cs ++ '\n' :: pad c)⟩ (.scalar cs true :: output) margin outer
        true) := by
  have hend : PlainEnd margin ('\n' :: pad c) rest := Or.inr ⟨c, rfl, hc, hrest⟩
  have hlen := List.length_pos_of_ne_nil hne
  -- The scalar is read together with the line break and the indentation behind it.
  refine (leads_of_readInLine rfl (startsToken_of_fitsPlain hfits hne _)
    (isContent_of_pos (by omega)) (by omega)
    (fun fuel hf => readInLine?_fitsPlain hfits hne hend (by omega) hf) ?_
    (by simp [block])).trans ?_
  · simp only [block, List.length_append, List.length_cons]
    omega
  · have hpast : IsPast (m.after (cs ++ '\n' :: pad c)) (placed m output margin allowed) :=
      isPast_placed hcol (by rw [List.any_append, any_isBreak_line, Bool.or_true])
    rw [any_isBreak_line]
    exact leads_ready_here hrest hpast

/-- A quoted scalar at the end of a line. -/
theorem leads_inQuotes {indent : Nat} (hindent : 0 < indent)
    (hstyle : ScalarStyle.of cs = .single ∨ ScalarStyle.of cs = .double) (hpos : 0 < margin)
    (hcol : margin ≤ m.column) {c : Nat} (hrest : StartsToken rest) :
    (ready ⟨scalarText indent cs ++ ('\n' :: pad c ++ rest), m⟩ output margin outer allowed).Leads
      (ready ⟨rest, m.after (scalarText indent cs ++ '\n' :: pad c)⟩ (.scalar cs false :: output)
        margin outer true) := by
  have htail : ∀ q : Quote, ('\n' :: pad c ++ rest).head? ≠ some q.char := by
    rintro (_ | _) <;> simp [Quote.char]
  have hlen := length_scalarText_pos indent cs
  -- The scalar ends at its quote, and the line break is skipped in front of the next token.
  refine (leads_of_readInLine rfl (startsToken_scalarText indent cs _)
    (isContent_of_pos (by omega)) (by omega)
    (fun fuel hf => readInLine?_inQuotes hindent hstyle htail hf) ?_ (by simp [block])).trans ?_
  · simp only [block, List.length_append]
    omega
  · have hpast : IsPast ((m.after (scalarText indent cs)).after ('\n' :: pad c))
        (placed m output margin allowed) := by
      rw [← Mark.after_append]
      exact isPast_placed hcol (by rw [List.any_append, any_isBreak_line, Bool.or_true])
    rw [Mark.after_append, ← Bool.false_or true, ← any_isBreak_line c]
    exact leads_ready (isPlainGap_line c) hrest hpast

/-- A literal block, which always ends a line. -/
theorem leads_literal (hstyle : ScalarStyle.of cs = .literal) (hcol : margin ≤ m.column)
    {c : Nat} (hc : c < margin) (hrest : StartsToken rest) :
    (ready ⟨endLine (literalText (margin + 1) cs) ++ (pad c ++ rest), m⟩ output margin outer
        allowed).Leads
      (ready ⟨rest, m.after (endLine (literalText (margin + 1) cs) ++ pad c)⟩
        (.scalar cs false :: output) margin outer true) := by
  obtain ⟨hfits, hne⟩ := fitsLiteral_of_literal hstyle
  simp only [fitsLiteral, Bool.and_eq_true] at hfits
  obtain ⟨⟨hprint, -⟩, -⟩ := hfits
  have hlen : cs.length + 2 ≤ (endLine (literalText (margin + 1) cs)).length := by
    have := length_le_indentLines (margin + 1) true cs
    rw [endLine_literalText hne, literalHeader]
    simp only [List.length_append, List.length_cons]
    omega
  refine leads_of_readInLine rfl ?_ (isContent_of_pos (by omega)) (by omega) (fun fuel hf => ?_) ?_
    (by simp [ready, block])
  · rw [endLine_literalText hne]
    exact startsToken_cons (by decide) (by decide) (by decide)
  · have hread := literalText_append (Nat.zero_lt_of_lt hc) hprint hne hc hrest
      (by rw [List.length_append] at hf; omega : cs.length + 1 < fuel) m
    have hstep : (ready ⟨endLine (literalText (margin + 1) cs) ++ (pad c ++ rest), m⟩ output margin
        outer allowed).readInLine? fuel = (ready ⟨endLine (literalText (margin + 1) cs) ++
          (pad c ++ rest), m⟩ output margin outer allowed).readBlockScalar? false fuel := by
      rw [endLine_literalText hne]
      rfl
    refine hstep.trans ?_
    rw [readBlockScalar?]
    simp only [ready, block, dropKeyPlace?, Option.any_none, Bool.false_eq_true, if_false,
      Option.bind_eq_bind, Option.bind_some, hread]
    rfl
  · simp only [ready, block, List.length_append]
    omega

/-- A text at the end of a line is read back, whatever its style, with the indentation of
    the next line. -/
theorem leads_text (hcol : margin ≤ m.column) {c : Nat} (hc : c < margin)
    (hrest : StartsToken rest) :
    (ready ⟨endLine (scalarText (margin + 1) cs) ++ (pad c ++ rest), m⟩ output margin outer
        allowed).Leads
      (ready ⟨rest, m.after (endLine (scalarText (margin + 1) cs) ++ pad c)⟩
        (textToken cs :: output) margin outer true) := by
  have hsplit (text tail : List Char) : text ++ ['\n'] ++ (pad c ++ tail) =
      text ++ ('\n' :: pad c ++ tail) := by simp
  cases hstyle : ScalarStyle.of cs with
  | plain =>
    rw [endLine_scalarText (by simp [hstyle]), hsplit, List.append_assoc, textToken, hstyle,
      scalarText, hstyle]
    exact leads_plain (fitsPlain_of_plain hstyle) (ne_nil_of_plain hstyle) hcol hc hrest
  | single =>
    rw [endLine_scalarText (by simp [hstyle]), hsplit, List.append_assoc, textToken, hstyle]
    exact leads_inQuotes (Nat.succ_pos _) (.inl hstyle) (Nat.zero_lt_of_lt hc) hcol hrest
  | double =>
    rw [endLine_scalarText (by simp [hstyle]), hsplit, List.append_assoc, textToken, hstyle]
    exact leads_inQuotes (Nat.succ_pos _) (.inr hstyle) (Nat.zero_lt_of_lt hc) hcol hrest
  | literal =>
    rw [textToken, hstyle, scalarText, hstyle]
    exact leads_literal hstyle hcol hc hrest

end Lexer

end ManifestBundle.Yaml
