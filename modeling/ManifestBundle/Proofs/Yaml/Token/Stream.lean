import ManifestBundle.Proofs.Yaml.Admission
import ManifestBundle.Proofs.Yaml.Token.Block

/-!
# Reading back a stream of documents

The tokens of a stream of maps, each behind a document mark. Between two documents the
lexer stands at the start of a line, and the map before may still be open there
(`AtTop`): only the mark, or the end of the stream, closes it.
-/

namespace ManifestBundle.Yaml

open Lexer

variable {m : Mark} {rest : List Char} {output output' : List Token} {margin : Nat}
  {outer : List Nat}

/-- The text of a stream of documents. -/
def streamText (vs : List Value) : List Char :=
  vs.flatMap fun v => '-' :: '-' :: '-' :: '\n' :: print v

/-- The tokens of a stream of documents. -/
def streamTokens (vs : List Value) : List Token :=
  vs.flatMap (fun v => .documentStart :: nodeTokens false v) ++ [.streamEnd]

/-! ## Between documents -/

/-- At most the collection at the start of the line is open; once it is closed, the
    tokens are `output'`. -/
inductive AtTop : Nat → List Nat → List Token → List Token → Prop
  | outside {output : List Token} : AtTop 0 [] output output
  | inside {output : List Token} : AtTop 1 [0] output (.blockEnd :: output)

theorem AtTop.margin_le (h : AtTop margin outer output output') : margin ≤ 1 := by
  cases h with
  | outside => exact Nat.zero_le 1
  | inside => exact Nat.le_refl 1

/-- Between documents all collections are closed. -/
theorem AtTop.dedentFully (h : AtTop margin outer output output') (k : Cursor) (allowed : Bool) :
    (ready k output margin outer allowed).dedentFully = ready k output' 0 [] allowed := by
  cases h <;> rfl

/-- A document mark closes what is open. -/
theorem leads_documentStart (h : AtTop margin outer output output') (hcol : m.column = 0) :
    (ready ⟨'-' :: '-' :: '-' :: '\n' :: rest, m⟩ output margin outer true).Leads
      (ready ⟨'\n' :: rest, m.after ['-', '-', '-']⟩ (.documentStart :: output') 0 [] false) := by
  have hmargin := h.margin_le
  have hstart : StartsToken ('-' :: '-' :: '-' :: '\n' :: rest) :=
    startsToken_cons (by decide) (by decide) (by decide)
  refine leads_of_read (fun fuel _ => ?_) ?_ (by simp [ready, block])
  · have hmark : readHere? fuel (ready ⟨'-' :: '-' :: '-' :: '\n' :: rest, m⟩ output margin outer
        true) = readDocumentMark? .documentStart
          (ready ⟨'-' :: '-' :: '-' :: '\n' :: rest, m⟩ output margin outer true) := by
      have hwhite : isWhite '\n' := by decide
      simp [readHere?, ready, block, Cursor.atDocumentMark, Cursor.column, hcol, atDocumentMark,
        atWhite, hwhite]
    rw [read?_ready hstart (by omega), hmark, readDocumentMark?, h.dedentFully]
    rfl
  · simp only [ready, block, List.length_cons]
    omega

/-- So does the end of the stream. -/
theorem yields_end (h : AtTop margin outer output output') (hcol : m.column = 0) :
    (ready ⟨[], m⟩ output margin outer true).Yields (output'.reverse ++ [.streamEnd]) := by
  have hmargin := h.margin_le
  have hread (fuel : Nat) : (ready ⟨[], m⟩ output margin outer true).read? fuel =
      some (ready ⟨[], m⟩ (.streamEnd :: output') 0 [] false) := by
    have hend : readHere? fuel (ready ⟨[], m⟩ output margin outer true) =
        readEnd? (ready ⟨[], m⟩ output margin outer true) :=
      readHere?_inLine (fun _ => ⟨by simp, rfl⟩) fuel
    rw [read?_ready startsToken_nil (by omega), hend, readEnd?, h.dedentFully]
    rfl
  have hlast := Yields.last (fun fuel _ => hread fuel) rfl
  simpa [ready, block] using hlast

/-! ## Documents -/

theorem exists_of_isMap {v : Value} (h : v.isMap) : ∃ es, v = .map es := by
  cases v with
  | map es => exact ⟨es, rfl⟩
  | _ => nomatch h

/-- The lines of a map at the start of a line. -/
theorem leads_root {v : Value} (hv : v.isMap) (hcol : m.column = 0) (hrest : StartsToken rest) :
    ∃ m' output' margin outer, m'.column = 0 ∧
      AtTop margin outer output' ((nodeTokens false v).reverse ++ output) ∧
      (ready ⟨print v ++ rest, m⟩ output 0 [] true).Leads
        (ready ⟨rest, m'⟩ output' margin outer true) := by
  obtain ⟨es, rfl⟩ := exists_of_isMap hv
  cases es with
  | nil =>
    obtain ⟨m', hm', hleads⟩ : Reads
        (ready ⟨'\x7b' :: '\x7d' :: '\n' :: (pad 0 ++ rest), m⟩ output 0 [] true) output
        [.flowMappingStart, .flowMappingEnd] rest 0 0 [] :=
      reads_empty .mapping (Nat.zero_le m.column) hrest
    exact ⟨m', _, 0, [], hm', .outside, hleads⟩
  | cons e es =>
    have hfirst : Enters .blockMappingStart 0 output 0 [] (.blockMappingStart :: output) [0] :=
      .first (Nat.le_refl 0)
    obtain ⟨m', hm', hleads⟩ := entriesRead (e :: es) (List.cons_ne_nil e es) hfirst hcol
      (Nat.le_refl 0) hrest
    have htokens : (nodeTokens false (.map (e :: es))).reverse ++ output = .blockEnd ::
        ((entryTokens (e :: es)).reverse ++ .blockMappingStart :: output) := by
      simp [nodeTokens]
    rw [htokens]
    exact ⟨m', _, 1, [0], hm', .inside, hleads⟩

/-- A stream starts with neither space nor comment. -/
theorem startsToken_streamText (vs : List Value) : StartsToken (streamText vs) := by
  cases vs with
  | nil => exact startsToken_nil
  | cons v vs => exact startsToken_cons (by decide) (by decide) (by decide)

/-- The tokens of a stream are those of its documents, by induction on them. -/
theorem yields_streamText {vs : List Value} (hvs : ∀ v ∈ vs, v.isMap)
    (h : AtTop margin outer output output') (hcol : m.column = 0) :
    (ready ⟨streamText vs, m⟩ output margin outer true).Yields
      (output'.reverse ++ streamTokens vs) := by
  induction vs generalizing m output output' margin outer with
  | nil => exact yields_end h hcol
  | cons v vs ih =>
    have hcol' : ((m.after ['-', '-', '-']).after ['\n']).column = 0 :=
      column_after_line m ['-', '-', '-'] 0
    obtain ⟨m', output'', margin', outer', hm', htop, hroot⟩ :=
      leads_root (hvs v List.mem_cons_self) hcol' (startsToken_streamText vs)
    have hmore := ih (fun w hw => hvs w (List.mem_cons_of_mem v hw)) htop hm'
    have hprint := startsToken_print v (streamText vs)
    have hread := (leads_documentStart h hcol).trans ((leads_newline hprint 0).trans hroot) _ hmore
    simpa [streamText, streamTokens, pad] using hread

theorem all_isPrintable_streamText (vs : List Value) : (streamText vs).all isPrintable := by
  have hmark : isPrintable '-' ∧ isPrintable '\n' := by decide
  rw [streamText, List.all_flatMap, List.all_eq_true]
  intro v _
  simp only [List.all_cons, hmark, all_isPrintable_print, Bool.and_self]

/-- The tokens of a stream of maps are those of its documents, and nothing is left. -/
theorem tokens_streamText {vs : List Value} (hvs : ∀ v ∈ vs, v.isMap) :
    tokens (streamText vs) = streamTokens vs := by
  have hyields : (ready ⟨streamText vs, {}⟩ [] 0 [] true).Yields ([].reverse ++ streamTokens vs) :=
    yields_streamText hvs .outside rfl
  have hprint := all_isPrintable_streamText vs
  simp only [tokens, takeIn_of_isPrintable hprint, unifyBreaks_of_isPrintable hprint]
  exact hyields.run (Nat.lt_succ_self _)

end ManifestBundle.Yaml
