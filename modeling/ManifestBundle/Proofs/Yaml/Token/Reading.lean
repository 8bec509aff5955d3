import ManifestBundle.Proofs.Yaml.Cursor
import ManifestBundle.Yaml.Token.Lexer

/-!
# Reading tokens one after the other

`Lexer.Yields s ts` says that the lexer reads on from `s` to the end of the stream, with
the tokens `ts` in all, whatever the fuel beyond what the characters need. What a piece
of text contributes is stated backwards: `s.Leads t` if everything that comes from `t`
comes from `s`, so that pieces are put together by composition.

Between pieces the lexer is *ready* (`Lexer.ready`): it stands at a token, and no token
read so far may still turn out to start a key. White space, and places of keys in earlier
lines, are passed over by the next step, so a lexer that has them yet to pass leads to
one that is ready (`leads_ready`).
-/

namespace ManifestBundle.Yaml.Lexer

/-! ## Steps -/

/-- All tokens can be read, and these are they. -/
inductive Yields : Lexer → List Token → Prop
  | last {s t : Lexer} (h : ∀ fuel, s.cursor.rest.length < fuel → s.read? fuel = some t)
      (hend : t.output.head? = some .streamEnd) : Yields s t.output.reverse
  | step {s t : Lexer} {ts : List Token}
      (h : ∀ fuel, s.cursor.rest.length < fuel → s.read? fuel = some t)
      (hshort : t.cursor.rest.length < s.cursor.rest.length)
      (hend : t.output.head? ≠ some .streamEnd) (ht : Yields t ts) : Yields s ts

/-- What comes from the second comes from the first. -/
def Leads (s t : Lexer) : Prop :=
  ∀ ts, t.Yields ts → s.Yields ts

theorem Yields.run {s : Lexer} {ts : List Token} (h : s.Yields ts) {fuel : Nat}
    (hf : s.cursor.rest.length + 1 < fuel) : run false fuel s = ts := by
  induction h generalizing fuel with
  | last h hend =>
    obtain ⟨fuel, rfl⟩ := Nat.exists_eq_succ_of_ne_zero (Nat.ne_of_gt (Nat.zero_lt_of_lt hf))
    simp [Lexer.run, h fuel (by omega), hend]
  | step h hshort hend _ ih =>
    obtain ⟨fuel, rfl⟩ := Nat.exists_eq_succ_of_ne_zero (Nat.ne_of_gt (Nat.zero_lt_of_lt hf))
    simp [Lexer.run, h fuel (by omega), hend, ih (by omega : _ < fuel)]

theorem Leads.refl (s : Lexer) : s.Leads s :=
  fun _ h => h

theorem Leads.trans {s t u : Lexer} (h : s.Leads t) (h' : t.Leads u) : s.Leads u :=
  fun ts hu => h ts (h' ts hu)

/-- A step leads to what it reads. -/
theorem leads_of_read {s t : Lexer}
    (h : ∀ fuel, s.cursor.rest.length < fuel → s.read? fuel = some t)
    (hshort : t.cursor.rest.length < s.cursor.rest.length)
    (hend : t.output.head? ≠ some .streamEnd) : s.Leads t :=
  fun _ ht => .step h hshort hend ht

/-- The lexers read the same next, and the second has no more in front of it. -/
theorem leads_of_same {s t : Lexer} (h : ∀ fuel, s.read? fuel = t.read? fuel)
    (hle : t.cursor.rest.length ≤ s.cursor.rest.length) : s.Leads t := by
  intro ts ht
  cases ht with
  | last hread hend => exact .last (fun fuel hf => (h fuel).trans (hread fuel (by omega))) hend
  | step hread hshort hend ht =>
    exact .step (fun fuel hf => (h fuel).trans (hread fuel (by omega))) (by omega) hend ht

/-! ## States in block context -/

/-- A lexer outside of flow collections. -/
def block (k : Cursor) (output : List Token) (margin : Nat) (outer : List Nat) (allowed : Bool)
    (keyPlace : Option KeyPlace) : Lexer where
  cursor := k
  output
  count := output.length
  margin
  outerMargins := outer
  keyPlace
  outerKeyPlaces := []
  keyAllowed := allowed

/-- A lexer that stands at a token and has no key to wait for. -/
def ready (k : Cursor) (output : List Token) (margin : Nat) (outer : List Nat) (allowed : Bool) :
    Lexer :=
  block k output margin outer allowed none

/-- Reads the token here, behind what stands between tokens. -/
def readHere? (fuel : Nat) (s : Lexer) : Option Lexer :=
  if s.cursor.column = 0 ∧ s.cursor.rest.head? = some '%' then s.readDirective? fuel
  else if s.cursor.atDocumentMark then
    s.readDocumentMark? (if s.cursor.rest.head? = some '-' then .documentStart else .documentEnd)
  else s.readInLine? fuel

theorem read?_eq (fuel : Nat) (s : Lexer) :
    s.read? fuel = s.skipToToken.refreshKeyPlaces?.bind fun t => t.dedent.readHere? fuel :=
  rfl

variable {k : Cursor} {m : Mark} {gap rest : List Char} {output : List Token} {margin : Nat}
  {outer : List Nat} {allowed : Bool} {keyPlace : Option KeyPlace}

/-- Only spaces and newlines stand between the tokens here. -/
def IsPlainGap (gap : List Char) : Prop :=
  ∀ c ∈ gap, c = ' ' ∨ c = '\n'

theorem skipBetween_gap (hgap : IsPlainGap gap) (hrest : StartsToken rest) (m : Mark)
    (allowed : Bool) : skipBetween false allowed false (gap ++ rest) m =
      (allowed || gap.any isBreak, ⟨rest, m.after gap⟩) := by
  induction gap generalizing m allowed with
  | nil =>
    cases rest with
    | nil => simp [skipBetween]
    | cons c rest =>
      obtain ⟨hwhite, hhash, -⟩ := hrest c rfl
      simp only [isWhite, isBlank, Bool.or_eq_false_iff, decide_eq_false_iff_not] at hwhite
      simp [skipBetween, hwhite, hhash]
  | cons c gap ih =>
    have hmore : IsPlainGap gap := fun d hd => hgap d (List.mem_cons_of_mem c hd)
    rcases hgap c List.mem_cons_self with rfl | rfl
    · simp [skipBetween, not_isBreak_space, ih hmore]
    · simp [skipBetween, isBreak_newline, ih hmore]

/-- Passes over the white space in front of a token. -/
theorem skipToToken_block (hgap : IsPlainGap gap) (hrest : StartsToken rest) :
    (block ⟨gap ++ rest, m⟩ output margin outer allowed keyPlace).skipToToken =
      block ⟨rest, m.after gap⟩ output margin outer (allowed || gap.any isBreak) keyPlace := by
  have hbom : (gap ++ rest).head? ≠ some '\ufeff' := by
    cases gap with
    | nil => exact fun h => (hrest _ h).2.2 rfl
    | cons c gap =>
      rcases hgap c List.mem_cons_self with rfl | rfl <;> simp
  simp only [skipToToken, block, inFlow, List.isEmpty_nil, Bool.not_true, hbom, and_false, if_false,
    skipBetween_gap hgap hrest]

/-- There is nothing to pass over in front of a token. -/
theorem skipToToken_here (hrest : StartsToken rest) :
    (block ⟨rest, m⟩ output margin outer allowed keyPlace).skipToToken =
      block ⟨rest, m⟩ output margin outer allowed keyPlace := by
  have h : (block ⟨[] ++ rest, m⟩ output margin outer allowed keyPlace).skipToToken =
      block ⟨rest, m.after []⟩ output margin outer (allowed || [].any isBreak) keyPlace :=
    skipToToken_block (fun _ h => nomatch h) hrest
  simpa using h

theorem refreshKeyPlaces?_block (keyPlace : Option KeyPlace) :
    (block k output margin outer allowed keyPlace).refreshKeyPlaces? =
      (refreshed? k.mark keyPlace).map (block k output margin outer allowed) := by
  cases h : refreshed? k.mark keyPlace <;> simp [refreshKeyPlaces?, block, h]

/-- A place in an earlier line is given up. -/
theorem refreshed?_earlier {p : KeyPlace} (hline : p.mark.line < m.line)
    (hfree : p.isRequired = false) : refreshed? m (some p) = some none := by
  simp [refreshed?, KeyPlace.isOver, hline, hfree]

/-- Nothing keeps the key from being in an earlier line. -/
def IsPast (m : Mark) (keyPlace : Option KeyPlace) : Prop :=
  ∀ p, keyPlace = some p → p.isRequired = false ∧ p.mark.line < m.line

/-- The lexer stands at the next token once it has passed over what is in front of it. -/
theorem leads_ready (hgap : IsPlainGap gap) (hrest : StartsToken rest)
    (hkey : IsPast (m.after gap) keyPlace) :
    (block ⟨gap ++ rest, m⟩ output margin outer allowed keyPlace).Leads
      (ready ⟨rest, m.after gap⟩ output margin outer (allowed || gap.any isBreak)) := by
  refine leads_of_same (fun fuel => ?_) (by simp [block, ready])
  have hplace : refreshed? (m.after gap) keyPlace = some none := by
    cases keyPlace with
    | none => rfl
    | some p => exact refreshed?_earlier (hkey p rfl).2 (hkey p rfl).1
  rw [read?_eq, read?_eq, skipToToken_block hgap hrest, ready, skipToToken_here hrest,
    refreshKeyPlaces?_block, refreshKeyPlaces?_block, hplace]
  rfl

theorem leads_ready_here (hrest : StartsToken rest) (hkey : IsPast m keyPlace) :
    (block ⟨rest, m⟩ output margin outer allowed keyPlace).Leads
      (ready ⟨rest, m⟩ output margin outer allowed) := by
  have h : (block ⟨[] ++ rest, m⟩ output margin outer allowed keyPlace).Leads
      (ready ⟨rest, m.after []⟩ output margin outer (allowed || [].any isBreak)) :=
    leads_ready (fun _ h => nomatch h) hrest hkey
  simpa using h

/-! ## A ready lexer -/

/-- What a lexer does at a token that does not stand to the left of the margin. -/
theorem read?_here (hplace : refreshed? m keyPlace = some keyPlace) (hrest : StartsToken rest)
    (hcol : margin ≤ m.column + 1) (fuel : Nat) :
    (block ⟨rest, m⟩ output margin outer allowed keyPlace).read? fuel =
      (block ⟨rest, m⟩ output margin outer allowed keyPlace).readHere? fuel := by
  have hstay : ¬ m.column + 1 < margin := Nat.not_lt.2 hcol
  rw [read?_eq, skipToToken_here hrest, refreshKeyPlaces?_block, hplace, Option.map_some,
    Option.bind_some]
  congr 1
  cases outer <;> simp [dedent, block, inFlow, closeBlocks, Cursor.column, hstay]

theorem read?_ready (hrest : StartsToken rest) (hcol : margin ≤ m.column + 1) (fuel : Nat) :
    (ready ⟨rest, m⟩ output margin outer allowed).read? fuel =
      (ready ⟨rest, m⟩ output margin outer allowed).readHere? fuel :=
  read?_here rfl hrest hcol fuel

/-- Neither a directive nor a document mark starts here. -/
def IsContent (m : Mark) (rest : List Char) : Prop :=
  m.column = 0 → rest.head? ≠ some '%' ∧ atDocumentMark rest = false

theorem isContent_of_pos (h : 0 < m.column) : IsContent m rest :=
  fun h' => absurd h' (Nat.ne_of_gt h)

/-- The content of a document is told by its first characters. -/
theorem readHere?_inLine (hcontent : IsContent m rest) (fuel : Nat) :
    (block ⟨rest, m⟩ output margin outer allowed keyPlace).readHere? fuel =
      (block ⟨rest, m⟩ output margin outer allowed keyPlace).readInLine? fuel := by
  have hdirective : ¬ (m.column = 0 ∧ rest.head? = some '%') := fun h => (hcontent h.1).1 h.2
  have hmark : (⟨rest, m⟩ : Cursor).atDocumentMark = false := by
    rw [Cursor.atDocumentMark, Bool.and_eq_false_iff]
    by_cases hcol : m.column = 0
    · exact .inr (hcontent hcol).2
    · exact .inl (by simpa [Cursor.column] using hcol)
  simp [readHere?, block, Cursor.column, hdirective, hmark]

/-- A step at the content of a document. -/
theorem leads_of_readInLine {t : Lexer} (hplace : refreshed? m keyPlace = some keyPlace)
    (hrest : StartsToken rest) (hcontent : IsContent m rest) (hcol : margin ≤ m.column + 1)
    (h : ∀ fuel, rest.length < fuel →
      (block ⟨rest, m⟩ output margin outer allowed keyPlace).readInLine? fuel = some t)
    (hshort : t.cursor.rest.length < rest.length) (hend : t.output.head? ≠ some .streamEnd) :
    (block ⟨rest, m⟩ output margin outer allowed keyPlace).Leads t := by
  refine leads_of_read (fun fuel hf => ?_) hshort hend
  rw [read?_here hplace hrest hcol, readHere?_inLine hcontent]
  exact h fuel hf

/-- A block collection ends at a token that stands to the left of it. -/
theorem leads_dedent {margin' : Nat} (hrest : StartsToken rest) (hcol : m.column + 1 < margin) :
    (ready ⟨rest, m⟩ output margin (margin' :: outer) allowed).Leads
      (ready ⟨rest, m⟩ (.blockEnd :: output) margin' outer allowed) := by
  refine leads_of_same (fun fuel => ?_) (Nat.le_refl _)
  rw [read?_eq, read?_eq, ready, ready, skipToToken_here hrest, skipToToken_here hrest,
    refreshKeyPlaces?_block, refreshKeyPlaces?_block]
  simp only [refreshed?, Option.map_some, Option.bind_some]
  congr 1
  simp [dedent, block, inFlow, Cursor.column, emit, closeBlocks.eq_def (m.column + 1) margin, hcol]

end ManifestBundle.Yaml.Lexer
