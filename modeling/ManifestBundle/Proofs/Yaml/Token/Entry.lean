import ManifestBundle.Proofs.Yaml.Token.Scalar
import ManifestBundle.Yaml.Printer

/-!
# Reading back the start of an entry

What stands in front of an item of a block sequence or of a value in a block mapping: a
hyphen, or a key and a colon. In front of the first entry the collection starts, unless
it is read already (`Enters`).
-/

namespace ManifestBundle.Yaml.Lexer

variable {m : Mark} {cs gap rest tail : List Char} {output output' : List Token}
  {margin n : Nat} {outer outer' : List Nat} {allowed : Bool} {start : Token}

/-! ## Collections -/

/-- A token at column `n` belongs to a block collection that starts there, with the given
    token, or that has started there before. -/
inductive Enters (start : Token) (n : Nat) (output : List Token) :
    Nat → List Nat → List Token → List Nat → Prop
  | first {margin : Nat} {outer : List Nat} (h : margin ≤ n) :
      Enters start n output margin outer (start :: output) (margin :: outer)
  | further {outer : List Nat} : Enters start n output (n + 1) outer output outer

theorem Enters.margin_le (h : Enters start n output margin outer output' outer') :
    margin ≤ n + 1 := by
  cases h with
  | first h => exact Nat.le_succ_of_le h
  | further => exact Nat.le_refl _

theorem Enters.startBlock (h : Enters start n output margin outer output' outer')
    (hcol : m.column = n) : (ready ⟨rest, m⟩ output margin outer allowed).startBlock start =
      ready ⟨rest, m⟩ output' (n + 1) outer' allowed := by
  subst hcol
  cases h with
  | first h =>
    simp [Lexer.startBlock, opensAt, inFlow, ready, block, emit, openBlock, Cursor.column, h]
  | further =>
    have hinside : ¬ m.column + 1 ≤ m.column := Nat.not_succ_le_self _
    simp [Lexer.startBlock, opensAt, inFlow, ready, block, Cursor.column, hinside]

/-! ## Indicators -/

theorem isPlainGap_space : IsPlainGap [' '] := by
  intro c hc
  exact .inl (List.mem_singleton.1 hc)

/-- One space stands in front of a token. -/
theorem leads_space (hrest : StartsToken rest) :
    (ready ⟨' ' :: rest, m⟩ output margin outer allowed).Leads
      (ready ⟨rest, m.next ' '⟩ output margin outer allowed) := by
  have h : (ready ⟨[' '] ++ rest, m⟩ output margin outer allowed).Leads
      (ready ⟨rest, m.after [' ']⟩ output margin outer (allowed || [' '].any isBreak)) :=
    leads_ready isPlainGap_space hrest (fun _ h => nomatch h)
  simpa [not_isBreak_space] using h

/-- An indicator that stands in front of a part of a block collection, with the token that
    starts the collection and its own token. -/
inductive IsIndicator : Char → Token → Token → Prop
  | hyphen : IsIndicator '-' .blockSequenceStart .blockEntry
  | question : IsIndicator '?' .blockMappingStart .key
  | colon : IsIndicator ':' .blockMappingStart .value

/-- An indicator and the space behind it take two columns. -/
theorem IsIndicator.column {a : Char} {t : Token} (hind : IsIndicator a start t)
    (hcol : m.column = n) : (m.after [a, ' ']).column = n + 2 := by
  have hline : [a, ' '].any isBreak = false := by
    cases hind <;> decide
  rw [m.column_after_of_no_break hline, hcol]
  rfl

theorem readInLine?_indicator {a : Char} {t : Token} (hind : IsIndicator a start t)
    (h : Enters start n output margin outer output' outer') (hcol : m.column = n) (fuel : Nat) :
    (ready ⟨a :: ' ' :: rest, m⟩ output margin outer true).readInLine? fuel =
      some (ready ⟨' ' :: rest, m.next a⟩ (t :: output') (n + 1) outer' true) := by
  have hblock : (ready ⟨a :: ' ' :: rest, m⟩ output margin outer true).startBlock start =
      ready ⟨a :: ' ' :: rest, m⟩ output' (n + 1) outer' true := h.startBlock hcol
  cases hind with
  | hyphen =>
    have hread : (ready ⟨'-' :: ' ' :: rest, m⟩ output margin outer true).readInLine? fuel =
        Lexer.readBlockEntry? (ready ⟨'-' :: ' ' :: rest, m⟩ output margin outer true) := rfl
    rw [hread]
    unfold readBlockEntry?
    rw [hblock]
    rfl
  | question =>
    have hread : (ready ⟨'?' :: ' ' :: rest, m⟩ output margin outer true).readInLine? fuel =
        (ready ⟨'?' :: ' ' :: rest, m⟩ output margin outer true).readKey? := rfl
    rw [hread, readKey?, hblock]
    rfl
  | colon =>
    -- No token in front of the colon may start a key, so the key stands at a question mark.
    have hread : (ready ⟨':' :: ' ' :: rest, m⟩ output margin outer true).readInLine? fuel =
        (ready ⟨':' :: ' ' :: rest, m⟩ output margin outer true).readValue? := rfl
    rw [hread]
    simp only [ready, block] at hblock
    simp only [readValue?, ready, block, hblock]
    rfl

/-- An indicator at the column of its collection. -/
theorem leads_indicator {a : Char} {t : Token} (hind : IsIndicator a start t)
    (h : Enters start n output margin outer output' outer') (hcol : m.column = n)
    (hrest : StartsToken rest) :
    (ready ⟨a :: ' ' :: rest, m⟩ output margin outer true).Leads
      (ready ⟨rest, m.after [a, ' ']⟩ (t :: output') (n + 1) outer' true) := by
  have hmargin := h.margin_le
  have hstart : StartsToken (a :: ' ' :: rest) := by
    cases hind <;> exact startsToken_cons (by decide) (by decide) (by decide)
  have hcontent : IsContent m (a :: ' ' :: rest) := by
    cases hind <;> exact fun _ => ⟨by simp, rfl⟩
  have hend : t ≠ .streamEnd := by
    cases hind <;> decide
  have hread : (ready ⟨a :: ' ' :: rest, m⟩ output margin outer true).Leads
      (ready ⟨' ' :: rest, m.next a⟩ (t :: output') (n + 1) outer' true) :=
    leads_of_readInLine rfl hstart hcontent (by omega)
      (fun fuel _ => readInLine?_indicator hind h hcol fuel) (Nat.lt_succ_self _)
      (by simpa [ready, block] using hend)
  exact hread.trans (leads_space hrest)

/-! ## Keys in front of a colon -/

/-- A document mark that is not in the scalar is not in front of its colon, either. -/
theorem not_atDocumentMark_key (h : startsAsMark cs = false) (tail : List Char) :
    atDocumentMark (cs ++ ':' :: tail) = false := by
  rcases cs with _ | ⟨a, _ | ⟨b, _ | ⟨c, ds⟩⟩⟩
  · rfl
  · simp [atDocumentMark]
  · simp [atDocumentMark]
  · unfold atDocumentMark
    split
    · next heq =>
      simp only [List.cons_append, List.cons.injEq] at heq
      obtain ⟨rfl, rfl, rfl, -⟩ := heq
      exact absurd h (by simp [startsAsMark])
    · next heq =>
      simp only [List.cons_append, List.cons.injEq] at heq
      obtain ⟨rfl, rfl, rfl, -⟩ := heq
      exact absurd h (by simp [startsAsMark])
    · rfl

/-- A key can stand at the start of a line. -/
theorem isContent_key (indent : Nat) (m : Mark) (hstyle : ScalarStyle.of cs ≠ .literal)
    (tail : List Char) : IsContent m (scalarText indent cs ++ ':' :: tail) := by
  intro _
  rw [scalarText]
  cases h : ScalarStyle.of cs with
  | single => exact ⟨by simp [singleText], rfl⟩
  | double => exact ⟨by simp [doubleText], rfl⟩
  | literal => exact absurd h hstyle
  | plain =>
    have hfits := fitsPlain_of_plain h
    simp only [fitsPlain, Bool.and_eq_true, Bool.not_eq_true'] at hfits
    obtain ⟨⟨⟨-, hmark⟩, hstart⟩, -⟩ := hfits
    refine ⟨?_, not_atDocumentMark_key hmark tail⟩
    obtain ⟨c, ds, rfl⟩ := List.exists_cons_of_ne_nil (ne_nil_of_plain h)
    rintro hc
    obtain rfl : c = '%' := by simpa using hc
    rw [startsAsIndicator] at hstart
    simp at hstart

/-- A key is read up to its colon, and its place is kept. -/
theorem readInLine?_key {indent : Nat} (hindent : 0 < indent)
    (hstyle : ScalarStyle.of cs ≠ .literal) {w : Char} (hw : isWhite w)
    (hcol : margin ≤ m.column + 1) {fuel : Nat}
    (hf : (scalarText indent cs ++ ':' :: w :: rest).length < fuel) :
    (ready ⟨scalarText indent cs ++ ':' :: w :: rest, m⟩ output margin outer true).readInLine?
        fuel =
      some (block ⟨':' :: w :: rest, m.after (scalarText indent cs)⟩ (textToken cs :: output) margin
        outer false (placed m output margin true)) := by
  have htail : ∀ q : Quote, (':' :: w :: rest).head? ≠ some q.char := by
    rintro (_ | _) <;> simp [Quote.char]
  cases hof : ScalarStyle.of cs with
  | literal => exact absurd hof hstyle
  | single =>
    rw [textToken, hof]
    exact readInLine?_inQuotes hindent (.inl hof) htail hf
  | double =>
    rw [textToken, hof]
    exact readInLine?_inQuotes hindent (.inr hof) htail hf
  | plain =>
    have hend : PlainEnd margin [] (':' :: w :: rest) := .inl ⟨rfl, w, rest, rfl, hw⟩
    rw [scalarText, hof] at hf ⊢
    rw [textToken, hof]
    have hread : (ready ⟨cs ++ ([] ++ ':' :: w :: rest), m⟩ output margin outer true).readInLine?
        fuel = _ :=
      readInLine?_fitsPlain (fitsPlain_of_plain hof) (ne_nil_of_plain hof) hend hcol hf
    rw [List.append_nil, List.nil_append] at hread
    exact hread

/-- The colon behind a key. The key may be the first one of a mapping, which then starts
    in front of it. -/
theorem readValue?_key (h : Enters .blockMappingStart n output margin outer output' outer')
    (hcol : m.column = n) (m' : Mark) (t : Token) :
    (block ⟨':' :: tail, m'⟩ (t :: output) margin outer false
        (placed m output margin true)).readValue? =
      some (ready ⟨tail, m'.next ':'⟩ (.value :: t :: .key :: output') (n + 1) outer' false) := by
  subst hcol
  cases h with
  | first h =>
    have hbehind : output.length + 1 - output.length = 1 := by omega
    simp [readValue?, block, ready, placed, opensAt, inFlow, h, insertAt, openBlock, hbehind,
      Lexer.take, emit, Cursor.skip, Cursor.next]
  | further =>
    have hbehind : output.length + 1 - output.length = 1 := by omega
    have hinside : ¬ m.column + 1 ≤ m.column := Nat.not_succ_le_self _
    simp [readValue?, block, ready, placed, opensAt, inFlow, hinside, insertAt, hbehind,
      Lexer.take, emit, Cursor.skip, Cursor.next]

theorem line_of_isSimpleKey {key : String} (h : isSimpleKey key) :
    key.utf8ByteSize ≤ 128 ∧ key.toList.any isBreak = false := by
  simp only [isSimpleKey, Bool.and_eq_true, decide_eq_true_eq, Bool.not_eq_true',
    List.any_eq_false] at h
  refine ⟨h.1, List.any_eq_false.2 fun c hc hbreak => h.2 c hc ?_⟩
  rw [endsLine, hbreak, Bool.true_or, Bool.true_or]

/-- A key in front of a colon, which stands in front of white space. -/
theorem leads_key (h : Enters .blockMappingStart n output margin outer output' outer')
    (hcol : m.column = n) {key : String} (hkey : isSimpleKey key) {indent : Nat}
    (hindent : 0 < indent) {w : Char} (hw : isWhite w) :
    (ready ⟨scalarText indent key.toList ++ ':' :: w :: rest, m⟩ output margin outer true).Leads
      (ready ⟨w :: rest, m.after (scalarText indent key.toList ++ [':'])⟩
        (.value :: textToken key.toList :: .key :: output') (n + 1) outer' false) := by
  have hmargin := h.margin_le
  obtain ⟨hsize, hline⟩ := line_of_isSimpleKey hkey
  have hstyle := not_literal_of_line hline
  have hpos := length_scalarText_pos indent key.toList
  have hafter := m.after_of_no_break (any_isBreak_scalarText indent hline hstyle)
  -- First the key is read as a scalar.
  have hscalar : (ready ⟨scalarText indent key.toList ++ ':' :: w :: rest, m⟩ output margin outer
      true).Leads (block ⟨':' :: w :: rest, m.after (scalarText indent key.toList)⟩
        (textToken key.toList :: output) margin outer false (placed m output margin true)) := by
    refine leads_of_readInLine rfl (startsToken_scalarText _ _ _)
      (isContent_key indent m hstyle _) (by omega)
      (fun fuel hf => readInLine?_key hindent hstyle hw (by omega) hf) ?_
      (by simp [block, textToken])
    simp only [block, List.length_append]
    omega
  -- The key is short enough that its place is still kept at the colon.
  have hkeep : refreshed? (m.after (scalarText indent key.toList))
      (placed m output margin true) = some (placed m output margin true) := by
    have hlen := length_scalarText_le indent key hline hstyle
    simp only [placed, refreshed?, KeyPlace.isOver, hafter, if_true]
    rw [if_neg]
    simp
    omega
  have hcolon : StartsToken (':' :: w :: rest) :=
    startsToken_cons (by decide) (by decide) (by decide)
  refine hscalar.trans (leads_of_readInLine hkeep hcolon (isContent_of_pos ?_) ?_
    (fun fuel _ => ?_) (Nat.lt_succ_self _) (by simp [ready, block]))
  · rw [hafter]
    exact Nat.add_pos_right _ hpos
  · rw [hafter]
    dsimp only
    omega
  · have hread : (block ⟨':' :: w :: rest, m.after (scalarText indent key.toList)⟩
        (textToken key.toList :: output) margin outer false
        (placed m output margin true)).readInLine? fuel =
        (block ⟨':' :: w :: rest, m.after (scalarText indent key.toList)⟩
          (textToken key.toList :: output) margin outer false
          (placed m output margin true)).readValue? := by
      simp [readInLine?, block, inFlow, atWhite, hw]
    rw [hread, readValue?_key h hcol, Mark.after_append]
    rfl

/-! ## Empty collections -/

/-- An empty flow collection: its brackets and their tokens. -/
inductive IsEmptyFlow : Char → Char → Token → Token → Prop
  | sequence : IsEmptyFlow '[' ']' .flowSequenceStart .flowSequenceEnd
  | mapping : IsEmptyFlow '\x7b' '\x7d' .flowMappingStart .flowMappingEnd

/-- A lexer inside of one flow collection. -/
def flow (k : Cursor) (output : List Token) (margin : Nat) (outer : List Nat)
    (outerPlace : Option KeyPlace) : Lexer :=
  { block k output margin outer true none with outerKeyPlaces := [outerPlace] }

variable {a b : Char} {t u : Token}

theorem readInLine?_open (h : IsEmptyFlow a b t u) (fuel : Nat) :
    (ready ⟨a :: rest, m⟩ output margin outer allowed).readInLine? fuel =
      some (flow ⟨rest, m.next a⟩ (t :: output) margin outer
        (placed m output margin allowed)) := by
  cases h <;> cases allowed <;> rfl

theorem read?_close (h : IsEmptyFlow a b t u) {place : Option KeyPlace}
    (hkeep : refreshed? m place = some place) (hpos : 0 < m.column) (fuel : Nat) :
    (flow ⟨b :: rest, m⟩ output margin outer place).read? fuel =
      some (block ⟨rest, m.next b⟩ (u :: output) margin outer false place) := by
  have hcol : m.column ≠ 0 := Nat.ne_of_gt hpos
  have hskip : (flow ⟨b :: rest, m⟩ output margin outer place).skipToToken =
      flow ⟨b :: rest, m⟩ output margin outer place := by
    cases h <;> simp [skipToToken, flow, block, skipBetween, isBreak]
  have hrefresh : (flow ⟨b :: rest, m⟩ output margin outer place).refreshKeyPlaces? =
      some (flow ⟨b :: rest, m⟩ output margin outer place) := by
    have hnone : refreshed? m none = some none := rfl
    simp [refreshKeyPlaces?, flow, block, hkeep, hnone]
  have hdedent : (flow ⟨b :: rest, m⟩ output margin outer place).dedent =
      flow ⟨b :: rest, m⟩ output margin outer place := rfl
  rw [read?_eq, hskip, hrefresh, Option.bind_some, hdedent]
  cases h <;> simp [readHere?, flow, block, Cursor.column, Cursor.atDocumentMark, hcol, readInLine?,
    readFlowEnd?, dropKeyPlace?, Lexer.take, emit, Cursor.skip, Cursor.next]

/-- A collection without entries, at the end of a line. -/
theorem leads_empty (h : IsEmptyFlow a b t u) (hcol : margin ≤ m.column) (c : Nat)
    (hrest : StartsToken rest) :
    (ready ⟨a :: b :: '\n' :: (pad c ++ rest), m⟩ output margin outer allowed).Leads
      (ready ⟨rest, m.after (a :: b :: '\n' :: pad c)⟩ (u :: t :: output) margin outer true) := by
  have hopen : StartsToken (a :: b :: '\n' :: (pad c ++ rest)) := by
    cases h <;> exact startsToken_cons (by decide) (by decide) (by decide)
  have hcontent : IsContent m (a :: b :: '\n' :: (pad c ++ rest)) := by
    cases h <;> exact fun _ => ⟨by simp, rfl⟩
  have hbreak : isBreak a = false ∧ isBreak b = false := by
    cases h <;> decide
  have hends : t ≠ .streamEnd ∧ u ≠ .streamEnd := by
    cases h <;> exact ⟨by simp, by simp⟩
  have hnext := m.next_of_not_break hbreak.1
  refine (leads_of_readInLine rfl hopen hcontent (by omega) (fun fuel _ => readInLine?_open h fuel)
    (Nat.lt_succ_self _) (by simp [flow, block, hends])).trans ?_
  have hkeep : refreshed? (m.next a) (placed m output margin allowed) =
      some (placed m output margin allowed) := by
    cases allowed with
    | false => rfl
    | true =>
      simp only [placed, refreshed?, KeyPlace.isOver, hnext, if_true]
      rw [if_neg]
      simp
  refine (leads_of_read (fun fuel _ => read?_close h hkeep (by simp [hnext]) fuel)
    (Nat.lt_succ_self _) (by simp [block, hends])).trans ?_
  have hpast : IsPast (m.after (a :: b :: '\n' :: pad c)) (placed m output margin allowed) :=
    isPast_placed hcol (by simp [isBreak_newline])
  rw [← Bool.false_or true, ← any_isBreak_line c]
  exact leads_ready (isPlainGap_line c) hrest hpast

end ManifestBundle.Yaml.Lexer
