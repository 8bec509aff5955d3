import ManifestBundle.Proofs.Yaml.Printer
import ManifestBundle.Proofs.Yaml.Token.Entry

/-!
# Reading back a block of lines

The tokens of a value (`nodeTokens`), and that its lines are read as these tokens. The
lines of a value end with the indentation of what follows, which stands to the left of
the value; the lexer is then ready there, with the collections of the value closed.
-/

namespace ManifestBundle.Yaml

open Lexer

/-! ## Tokens of a value -/

mutual

/-- The tokens of a value. A sequence at the column of its key stands without the marks
    of its start and end. -/
def nodeTokens (indentless : Bool) : Value → List Token
  | .null => [.scalar ['n', 'u', 'l', 'l'] true]
  | .bool true => [.scalar ['t', 'r', 'u', 'e'] true]
  | .bool false => [.scalar ['f', 'a', 'l', 's', 'e'] true]
  | .number x => [.scalar (printNumber x) true]
  | .text s => [textToken s.toList]
  | .sequence [] => [.flowSequenceStart, .flowSequenceEnd]
  | .sequence (v :: vs) =>
    if indentless then itemTokens (v :: vs)
    else .blockSequenceStart :: itemTokens (v :: vs) ++ [.blockEnd]
  | .map [] => [.flowMappingStart, .flowMappingEnd]
  | .map (e :: es) => .blockMappingStart :: entryTokens (e :: es) ++ [.blockEnd]
termination_by structural v => v

/-- The tokens of the items of a sequence. -/
def itemTokens : List Value → List Token
  | [] => []
  | v :: vs => .blockEntry :: nodeTokens false v ++ itemTokens vs
termination_by structural vs => vs

/-- The tokens of the entries of a map. -/
def entryTokens : List (String × Value) → List Token
  | [] => []
  | (key, v) :: es =>
    .key :: textToken key.toList :: .value :: nodeTokens (isSimpleKey key) v ++ entryTokens es
termination_by structural es => es

end

/-! ## Lines -/

variable {m : Mark} {cs rest rest' text : List Char} {output output' : List Token}
  {margin margin' n c c' : Nat} {outer outer' : List Nat} {allowed : Bool} {s t : Lexer}
  {ts us : List Token}

theorem column_after_line (m : Mark) (text : List Char) (c : Nat) :
    (m.after (text ++ '\n' :: pad c)).column = c := by
  rw [Mark.after_append, Mark.column_after_line _ isBreak_newline (any_isBreak_pad c), length_pad]

theorem column_after_endLine (m : Mark) (text : List Char) (c : Nat) :
    (m.after (endLine text ++ pad c)).column = c := by
  rw [endLine]
  split
  · next h =>
    obtain ⟨b, hlast, hbreak⟩ := (Option.any_eq_true _ _).1 h
    obtain ⟨front, rfl⟩ := List.getLast?_eq_some_iff.1 hlast
    rw [List.append_assoc, Mark.after_append, List.singleton_append,
      Mark.column_after_line _ hbreak (any_isBreak_pad c), length_pad]
  · rw [List.append_assoc]
    exact column_after_line m text c

/-- The lexer reads the given tokens and is ready at column `c` then, in front of `rest`.
    `output` is what it has read before. -/
def Reads (s : Lexer) (output : List Token) (ts : List Token) (rest : List Char) (c margin : Nat)
    (outer : List Nat) : Prop :=
  ∃ m, m.column = c ∧ s.Leads (ready ⟨rest, m⟩ (ts.reverse ++ output) margin outer true)

namespace Reads

/-- Reading on behind some steps. -/
theorem of_leads (us : List Token) (h : s.Leads t)
    (ht : Reads t (us.reverse ++ output) ts rest c margin outer) :
    Reads s output (us ++ ts) rest c margin outer := by
  obtain ⟨m, hm, hleads⟩ := ht
  refine ⟨m, hm, h.trans ?_⟩
  rwa [List.reverse_append, List.append_assoc]

/-- Reading on behind some tokens. -/
theorem trans (h : Reads s output us rest c margin outer)
    (h' : ∀ m : Mark, m.column = c →
      Reads (ready ⟨rest, m⟩ (us.reverse ++ output) margin outer true) (us.reverse ++ output) ts
        rest' c' margin' outer') :
    Reads s output (us ++ ts) rest' c' margin' outer' := by
  obtain ⟨m, hm, hleads⟩ := h
  exact of_leads us hleads (h' m hm)

/-- The collection that the lexer is in ends in front of what stands to the left of it. -/
theorem dedent (h : Reads s output ts rest c (n + 1) (margin :: outer)) (hrest : StartsToken rest)
    (hc : c < n) : Reads s output (ts ++ [.blockEnd]) rest c margin outer := by
  refine h.trans fun m hm => ⟨m, hm, leads_dedent hrest ?_⟩
  omega

end Reads

/-! ## Scalars and empty collections -/

/-- A plain text is read as one token, up to the next line. -/
theorem reads_plain (hfits : fitsPlain cs) (hne : cs ≠ []) (hcol : margin ≤ m.column)
    (hc : c < margin) (hrest : StartsToken rest) :
    Reads (ready ⟨cs ++ '\n' :: (pad c ++ rest), m⟩ output margin outer allowed) output
      [.scalar cs true] rest c margin outer :=
  ⟨_, column_after_line m cs c, leads_plain hfits hne hcol hc hrest⟩

/-- A text is read as one token, however it is written. -/
theorem reads_text (hcol : margin ≤ m.column) (hc : c < margin) (hrest : StartsToken rest) :
    Reads (ready ⟨endLine (scalarText (margin + 1) cs) ++ (pad c ++ rest), m⟩ output margin outer
      allowed) output [textToken cs] rest c margin outer :=
  ⟨_, column_after_endLine m _ c, leads_text hcol hc hrest⟩

/-- An empty collection is read as its two brackets. -/
theorem reads_empty {a b : Char} {t u : Token} (h : IsEmptyFlow a b t u) (hcol : margin ≤ m.column)
    (hrest : StartsToken rest) :
    Reads (ready ⟨a :: b :: '\n' :: (pad c ++ rest), m⟩ output margin outer allowed) output
      [t, u] rest c margin outer :=
  ⟨_, column_after_line m [a, b] c, leads_empty h hcol c hrest⟩

/-! ## Collections -/

/-- The value stands on lines of its own. -/
def isBlock : Value → Bool
  | .sequence (_ :: _) | .map (_ :: _) => true
  | _ => false

/-- The lines of the value are read as its tokens. A block starts at column `n + 2`,
    any other value may stand behind something in the same line. -/
def NodeRead (v : Value) : Prop :=
  ∀ ⦃n c : Nat⦄ ⦃m : Mark⦄ ⦃rest : List Char⦄ ⦃output : List Token⦄ ⦃outer : List Nat⦄
    ⦃allowed : Bool⦄, c ≤ n → StartsToken rest → n + 1 ≤ m.column →
    (isBlock v → m.column = n + 2 ∧ allowed = true) →
    Reads (ready ⟨printNode (n + 2) v ++ (pad c ++ rest), m⟩ output (n + 1) outer allowed) output
      (nodeTokens false v) rest c (n + 1) outer

/-- The lines of the items are read as their tokens. -/
def ItemsRead (vs : List Value) : Prop :=
  ∀ ⦃n c : Nat⦄ ⦃m : Mark⦄ ⦃rest : List Char⦄ ⦃output output' : List Token⦄ ⦃margin : Nat⦄
    ⦃outer outer' : List Nat⦄, Enters .blockSequenceStart n output margin outer output' outer' →
    m.column = n → c ≤ n → StartsToken rest →
    Reads (ready ⟨printItems n vs ++ (pad c ++ rest), m⟩ output margin outer true) output'
      (itemTokens vs) rest c (n + 1) outer'

/-- The lines of the entries are read as their tokens. -/
def EntriesRead (es : List (String × Value)) : Prop :=
  ∀ ⦃n c : Nat⦄ ⦃m : Mark⦄ ⦃rest : List Char⦄ ⦃output output' : List Token⦄ ⦃margin : Nat⦄
    ⦃outer outer' : List Nat⦄, Enters .blockMappingStart n output margin outer output' outer' →
    m.column = n → c ≤ n → StartsToken rest →
    Reads (ready ⟨printEntries n es ++ (pad c ++ rest), m⟩ output margin outer true) output'
      (entryTokens es) rest c (n + 1) outer'

/-- If the value is a sequence with items, these are read as their tokens. -/
def SequenceRead (v : Value) : Prop :=
  ∀ vs, v = .sequence vs → vs ≠ [] → ItemsRead vs

/-- A sequence is read if its items are. -/
theorem nodeRead_sequence {v : Value} {vs : List Value} (h : ItemsRead (v :: vs)) :
    NodeRead (.sequence (v :: vs)) := by
  intro n c m rest output outer allowed hc hrest _ hblock
  obtain ⟨hcol, rfl⟩ := hblock rfl
  -- The first item starts the sequence, and what follows stands to the left of it.
  have hfirst : Enters .blockSequenceStart (n + 2) output (n + 1) outer
      (.blockSequenceStart :: output) ((n + 1) :: outer) := .first (Nat.le_succ _)
  have hitems := (h hfirst hcol (by omega) hrest).dedent hrest (by omega : c < n + 2)
  exact Reads.of_leads [.blockSequenceStart] (Leads.refl _) hitems

/-- A map is read if its entries are. -/
theorem nodeRead_map {e : String × Value} {es : List (String × Value)}
    (h : EntriesRead (e :: es)) : NodeRead (.map (e :: es)) := by
  intro n c m rest output outer allowed hc hrest _ hblock
  obtain ⟨hcol, rfl⟩ := hblock rfl
  have hfirst : Enters .blockMappingStart (n + 2) output (n + 1) outer
      (.blockMappingStart :: output) ((n + 1) :: outer) := .first (Nat.le_succ _)
  have hentries := (h hfirst hcol (by omega) hrest).dedent hrest (by omega : c < n + 2)
  exact Reads.of_leads [.blockMappingStart] (Leads.refl _) hentries

theorem column_next (m : Mark) {c : Char} (h : isBreak c = false) :
    (m.next c).column = m.column + 1 := by
  rw [m.next_of_not_break h]

/-- Items are read if the first one is and the others are. -/
theorem itemsRead_cons {v : Value} {vs : List Value} (hv : NodeRead v)
    (hvs : vs ≠ [] → ItemsRead vs) : ItemsRead (v :: vs) := by
  intro n c m rest output output' margin outer outer' h hcol hc hrest
  have hcol' : (m.after ['-', ' ']).column = n + 2 := IsIndicator.hyphen.column hcol
  have hitem {c' : Nat} {rest' : List Char} (hc' : c' ≤ n) (hrest' : StartsToken rest') :
      Reads (ready ⟨'-' :: ' ' :: (printNode (n + 2) v ++ (pad c' ++ rest')), m⟩ output margin
        outer true) output' ([.blockEntry] ++ nodeTokens false v) rest' c' (n + 1) outer' :=
    .of_leads [.blockEntry] (leads_indicator .hyphen h hcol (startsToken_printNode _ _ _))
      (hv hc' hrest' (by omega) fun _ => ⟨hcol', rfl⟩)
  cases vs with
  | nil =>
    have htext : printItems n [v] ++ (pad c ++ rest) =
        '-' :: ' ' :: (printNode (n + 2) v ++ (pad c ++ rest)) := by
      rw [printItems_cons, moreItems, List.append_nil]
      rfl
    rw [htext, itemTokens, itemTokens, List.append_nil]
    exact hitem hc hrest
  | cons w vs =>
    have htext : printItems n (v :: w :: vs) ++ (pad c ++ rest) =
        '-' :: ' ' :: (printNode (n + 2) v ++ (pad n ++ (printItems n (w :: vs) ++
          (pad c ++ rest)))) := by
      rw [printItems_cons, moreItems]
      simp
    rw [htext, itemTokens]
    exact (hitem (Nat.le_refl n) (startsToken_printItems _ _ _ _)).trans fun m hm =>
      hvs (List.cons_ne_nil w vs) .further hm hc hrest

/-- Only the hyphens of a sequence may stand at the column of the key. -/
theorem nodeTokens_of_not_sequence {v : Value} (h : ∀ w ws, v ≠ .sequence (w :: ws))
    (indentless : Bool) : nodeTokens indentless v = nodeTokens false v := by
  match v with
  | .null => rfl
  | .bool true => rfl
  | .bool false => rfl
  | .number _ => rfl
  | .text _ => rfl
  | .sequence [] => rfl
  | .sequence (w :: ws) => exact absurd rfl (h w ws)
  | .map [] => rfl
  | .map (_ :: _) => rfl

theorem isWhite_besideKey (n : Nat) (v : Value) :
    ∃ w more, besideKey n v = w :: more ∧ isWhite w := by
  unfold besideKey
  split
  · exact ⟨'\n', _, rfl, by decide⟩
  · exact ⟨'\n', _, rfl, by decide⟩
  · exact ⟨' ', _, rfl, by decide⟩

/-- Line breaks and indentation in front of a token are passed over. -/
theorem leads_newline (hrest : StartsToken rest) (k : Nat) :
    (ready ⟨'\n' :: pad k ++ rest, m⟩ output margin outer allowed).Leads
      (ready ⟨rest, m.after ('\n' :: pad k)⟩ output margin outer true) := by
  rw [← Bool.or_true allowed, ← any_isBreak_line k]
  exact leads_ready (isPlainGap_line k) hrest fun _ h => nomatch h

/-- What stands beside a key is read as the tokens of its value. -/
theorem reads_besideKey {v : Value} (hv : NodeRead v)
    (hitems : SequenceRead v) (hcol : n + 1 ≤ m.column)
    (hc : c ≤ n) (hrest : StartsToken rest) :
    Reads (ready ⟨besideKey n v ++ (pad c ++ rest), m⟩ output (n + 1) outer false) output
      (nodeTokens true v) rest c (n + 1) outer := by
  unfold besideKey
  split
  · next w ws =>
    -- The items stand at the column of the key.
    rw [List.append_assoc, nodeTokens, if_pos rfl]
    have hcol' := column_after_line m [] n
    exact .of_leads [] (leads_newline (startsToken_printItems _ _ _ _) n)
      (hitems _ rfl (List.cons_ne_nil w ws) .further hcol' hc hrest)
  · next e es =>
    -- The entries stand two columns to the right of it.
    rw [List.append_assoc]
    have hcol' := column_after_line m [] (n + 2)
    exact .of_leads [] (leads_newline (startsToken_printEntries _ _ _ _) (n + 2))
      (hv hc hrest (Nat.le_trans (Nat.le_succ _) (Nat.le_of_eq hcol'.symm))
        fun _ => ⟨hcol', rfl⟩)
  · next hsequence hmap =>
    have hblock : isBlock v = false := by
      match v with
      | .sequence (w :: ws) => exact absurd rfl (hsequence w ws)
      | .map (e :: es) => exact absurd rfl (hmap e es)
      | .sequence [] | .map [] | .null | .bool _ | .number _ | .text _ => rfl
    rw [nodeTokens_of_not_sequence hsequence]
    have hcol' : n + 1 ≤ (m.next ' ').column := by
      rw [column_next _ not_isBreak_space]
      omega
    exact .of_leads [] (leads_space (startsToken_printNode _ _ _))
      (hv hc hrest hcol' fun h => absurd h (by simp [hblock]))

/-- An entry whose key stands in front of a colon. -/
theorem reads_simpleEntry {key : String} (hkey : isSimpleKey key) {v : Value} (hv : NodeRead v)
    (hitems : SequenceRead v)
    (h : Enters .blockMappingStart n output margin outer output' outer') (hcol : m.column = n)
    (hc : c ≤ n) (hrest : StartsToken rest) :
    Reads (ready ⟨scalarText (n + 2) key.toList ++ ':' :: (besideKey n v ++ (pad c ++ rest)), m⟩
        output margin outer true) output'
      ([.key, textToken key.toList, .value] ++ nodeTokens true v) rest c (n + 1) outer' := by
  obtain ⟨w, more, hbeside, hw⟩ := isWhite_besideKey n v
  have hlen := length_scalarText_pos (n + 2) key.toList
  have hbreak := any_isBreak_scalarText (n + 2) (line_of_isSimpleKey hkey).2
    (not_literal_of_line (line_of_isSimpleKey hkey).2)
  have hcol' : n + 1 ≤ (m.after (scalarText (n + 2) key.toList ++ [':'])).column := by
    have hcolon : isBreak ':' = false := by decide
    rw [Mark.after_append, Mark.column_after_of_no_break _ (by simp [hcolon]),
      Mark.column_after_of_no_break _ hbreak]
    omega
  have hsplit : besideKey n v ++ (pad c ++ rest) = w :: (more ++ (pad c ++ rest)) := by
    rw [hbeside]
    rfl
  have hvalue : Reads (ready ⟨besideKey n v ++ (pad c ++ rest), m.after (scalarText (n + 2)
      key.toList ++ [':'])⟩ (.value :: textToken key.toList :: .key :: output') (n + 1) outer'
      false) (.value :: textToken key.toList :: .key :: output') (nodeTokens true v) rest c (n + 1)
      outer' := reads_besideKey hv hitems hcol' hc hrest
  rw [hsplit] at hvalue ⊢
  exact .of_leads [.key, textToken key.toList, .value]
    (leads_key h hcol hkey (Nat.succ_pos (n + 1)) hw) hvalue

/-- An entry whose key stands at a question mark, with the value on a line of its own. -/
theorem reads_explicitEntry (key : String) {v : Value} (hv : NodeRead v)
    (h : Enters .blockMappingStart n output margin outer output' outer') (hcol : m.column = n)
    (hc : c ≤ n) (hrest : StartsToken rest) :
    Reads (ready ⟨'?' :: ' ' :: (endLine (scalarText (n + 2) key.toList) ++ (pad n ++
        ':' :: ' ' :: (printNode (n + 2) v ++ (pad c ++ rest)))), m⟩ output margin outer true)
      output' ([.key, textToken key.toList, .value] ++ nodeTokens false v) rest c (n + 1)
      outer' := by
  have hstart : StartsToken (endLine (scalarText (n + 2) key.toList) ++ (pad n ++
      ':' :: ' ' :: (printNode (n + 2) v ++ (pad c ++ rest)))) := by
    obtain ⟨more, hmore⟩ := endLine_append (scalarText (n + 2) key.toList) (pad n ++
      ':' :: ' ' :: (printNode (n + 2) v ++ (pad c ++ rest)))
    rw [hmore]
    exact startsToken_scalarText _ _ _
  have hcolon : StartsToken (':' :: ' ' :: (printNode (n + 2) v ++ (pad c ++ rest))) :=
    startsToken_cons (by decide) (by decide) (by decide)
  have hcol' := IsIndicator.question.column hcol
  refine .of_leads [.key] (leads_indicator .question h hcol hstart)
    ((reads_text (by omega) (Nat.lt_succ_self n) hcolon).trans fun m' hm' => ?_)
  have hvalue := IsIndicator.colon.column hm'
  exact .of_leads [.value] (leads_indicator .colon .further hm' (startsToken_printNode _ _ _))
    (hv hc hrest (by omega) fun _ => ⟨hvalue, rfl⟩)

/-- An entry is read as its tokens, whichever way its key is written. -/
theorem reads_printEntry (key : String) {v : Value} (hv : NodeRead v)
    (hitems : SequenceRead v)
    (h : Enters .blockMappingStart n output margin outer output' outer') (hcol : m.column = n)
    (hc : c ≤ n) (hrest : StartsToken rest) :
    Reads (ready ⟨printEntry n key v ++ (pad c ++ rest), m⟩ output margin outer true) output'
      ([.key, textToken key.toList, .value] ++ nodeTokens (isSimpleKey key) v) rest c (n + 1)
      outer' := by
  rw [printEntry]
  split
  · next hkey =>
    rw [hkey, List.append_assoc, List.cons_append]
    exact reads_simpleEntry hkey hv hitems h hcol hc hrest
  · next hkey =>
    rw [Bool.not_eq_true] at hkey
    rw [hkey]
    simp only [List.append_assoc, List.cons_append]
    exact reads_explicitEntry key hv h hcol hc hrest

/-- Entries are read if the value of the first one is and the others are. -/
theorem entriesRead_cons {key : String} {v : Value} {es : List (String × Value)} (hv : NodeRead v)
    (hitems : SequenceRead v)
    (hes : es ≠ [] → EntriesRead es) : EntriesRead ((key, v) :: es) := by
  intro n c m rest output output' margin outer outer' h hcol hc hrest
  rw [printEntries_cons]
  cases es with
  | nil =>
    have hentry := reads_printEntry key hv hitems h hcol hc hrest
    rw [moreEntries, List.append_nil]
    simpa [entryTokens] using hentry
  | cons e es =>
    have hentry := reads_printEntry key hv hitems h hcol (Nat.le_refl n)
      (startsToken_printEntries n e es (pad c ++ rest))
    have hmore := hentry.trans fun m hm => hes (List.cons_ne_nil e es) .further hm hc hrest
    rw [moreEntries]
    simpa [entryTokens] using hmore

/-! ## Values -/

mutual

/-- The lines of a value are read as its tokens. -/
theorem nodeRead : ∀ v : Value, NodeRead v
  | .null => fun _ _ _ _ _ _ _ hc hrest hcol _ =>
    reads_plain (by decide) (by decide) hcol (Nat.lt_succ_of_le hc) hrest
  | .bool true => fun _ _ _ _ _ _ _ hc hrest hcol _ =>
    reads_plain (by decide) (by decide) hcol (Nat.lt_succ_of_le hc) hrest
  | .bool false => fun _ _ _ _ _ _ _ hc hrest hcol _ =>
    reads_plain (by decide) (by decide) hcol (Nat.lt_succ_of_le hc) hrest
  | .number x => by
    intro n c m rest output outer allowed hc hrest hcol _
    rw [printNode, List.append_assoc, nodeTokens]
    exact reads_plain (fitsPlain_printNumber x) (printNumber_ne_nil x) hcol (Nat.lt_succ_of_le hc)
      hrest
  | .text s => fun _ _ _ _ _ _ _ hc hrest hcol _ =>
    reads_text hcol (Nat.lt_succ_of_le hc) hrest
  | .sequence [] => fun _ _ _ _ _ _ _ _ hrest hcol _ => reads_empty .sequence hcol hrest
  | .sequence (v :: vs) => nodeRead_sequence (itemsRead (v :: vs) (List.cons_ne_nil v vs))
  | .map [] => fun _ _ _ _ _ _ _ _ hrest hcol _ => reads_empty .mapping hcol hrest
  | .map (e :: es) => nodeRead_map (entriesRead (e :: es) (List.cons_ne_nil e es))
termination_by structural v => v

theorem sequenceRead : ∀ v : Value, SequenceRead v
  | .sequence vs => fun _ h hne => Value.sequence.inj h ▸ itemsRead vs (Value.sequence.inj h ▸ hne)
  | .null | .bool _ | .number _ | .text _ | .map _ => fun _ h => nomatch h
termination_by structural v => v

theorem itemsRead : ∀ vs : List Value, vs ≠ [] → ItemsRead vs
  | [], h => absurd rfl h
  | v :: vs, _ => itemsRead_cons (nodeRead v) (itemsRead vs)
termination_by structural vs => vs

theorem entriesRead : ∀ es : List (String × Value), es ≠ [] → EntriesRead es
  | [], h => absurd rfl h
  | (_, v) :: es, _ => entriesRead_cons (nodeRead v) (sequenceRead v) (entriesRead es)
termination_by structural es => es

end

end ManifestBundle.Yaml
