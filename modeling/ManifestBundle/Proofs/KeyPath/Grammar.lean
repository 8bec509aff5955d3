import ManifestBundle.Document.Lookup
import ManifestBundle.Proofs.Except
import ManifestBundle.Proofs.Text.Digits
import ManifestBundle.Schema
import Mathlib.Data.List.Induction

/-!
# The grammar of key paths

What is a key path and which segments it spells, said without a reader (`Spells`): a text
of blanks is the root; any other text is a bare segment or a bracket, and then further
bare segments, each behind a dot, and brackets. The reader accepts exactly the texts of
the grammar, with the segments that they spell.

Both directions go element by element. What the reader takes off the front of a text is an
element (`spellsBare_of_bare`, `spellsBracket_of_bracket`), and an element is read whatever
follows it (`bare_of_spellsBare`, `bracket_of_spellsBracket`), if only a bare segment ends
where the next element starts.
-/

namespace ManifestBundle.KeyPath

/-! ## The grammar -/

/-- The decimal numeral stands for the number; zeros in front do not count. -/
inductive Numeral : List Char → Nat → Prop
  | digit {d : Nat} (lt : d < 10) : Numeral [d.digitChar] d
  | append {ds : List Char} {n d : Nat} (front : Numeral ds n) (lt : d < 10) :
      Numeral (ds ++ [d.digitChar]) (10 * n + d)

/-- The characters between two quotes, and the key that they stand for: a backslash stands
    for the character behind it, whatever that is, and any other character for itself. -/
inductive SpellsKey : List Char → List Char → Prop
  | nil : SpellsKey [] []
  | escaped (c : Char) {cs key : List Char} (rest : SpellsKey cs key) :
      SpellsKey ('\\' :: c :: cs) (c :: key)
  | plain {c : Char} {cs key : List Char} (notQuote : c ≠ '\'') (notBackslash : c ≠ '\\')
      (rest : SpellsKey cs key) : SpellsKey (c :: cs) (c :: key)

/-- A bare segment: digits that are the numeral of an index, which has 64 bits, or
    characters that are not reserved and not all digits. -/
inductive SpellsBare : List Char → Segment → Prop
  | index {ds : List Char} {i : UInt64} (numeral : Numeral ds i.toNat) :
      SpellsBare ds (.index i)
  | key {run : List Char} (free : ∀ c ∈ run, isReserved c = false)
      (notDigits : ∃ c ∈ run, Text.isDigit c = false) : SpellsBare run (.key (String.ofList run))

/-- A segment in brackets: the numeral of an index, or a key in quotes. -/
inductive SpellsBracket : List Char → Segment → Prop
  | index {ds : List Char} {i : UInt64} (numeral : Numeral ds i.toNat) :
      SpellsBracket ('[' :: ds ++ [']']) (.index i)
  | key {cs key : List Char} (quoted : SpellsKey cs key) :
      SpellsBracket (['[', '\''] ++ cs ++ ['\'', ']']) (.key (String.ofList key))

/-- The elements behind the first one. -/
inductive SpellsElements : List Char → List Segment → Prop
  | nil : SpellsElements [] []
  | dot {run rest : List Char} {s : Segment} {ss : List Segment} (first : SpellsBare run s)
      (more : SpellsElements rest ss) : SpellsElements ('.' :: run ++ rest) (s :: ss)
  | bracket {cs rest : List Char} {s : Segment} {ss : List Segment} (first : SpellsBracket cs s)
      (more : SpellsElements rest ss) : SpellsElements (cs ++ rest) (s :: ss)

/-- A text, and the path that it spells. -/
inductive Spells : List Char → KeyPath → Prop
  | root {cs : List Char} (blank : Text.allBlank cs) : Spells cs root
  | path {cs rest : List Char} {s : Segment} {ss : List Segment}
      (notBlank : Text.allBlank (cs ++ rest) = false) (first : SpellsBare cs s ∨ SpellsBracket cs s)
      (more : SpellsElements rest ss) : Spells (cs ++ rest) ⟨s :: ss⟩

/-! ## Numerals -/

theorem isDigit_digitChar {d : Nat} (h : d < 10) : Text.isDigit d.digitChar := by
  revert d
  decide

/-- The numerals are the runs of digits, and stand for what the digits add up to. -/
theorem numeral_iff {ds : List Char} {n : Nat} :
    Numeral ds n ↔ ds ≠ [] ∧ ds.all Text.isDigit ∧ Nat.ofDigitChars 10 ds 0 = n := by
  constructor
  · intro h
    induction h with
    | digit lt =>
      simp [isDigit_digitChar lt, Nat.ofDigitChars_cons_digitChar_of_lt_ten lt]
    | append _ lt ih =>
      obtain ⟨-, hdigits, hvalue⟩ := ih
      simp [hdigits, isDigit_digitChar lt, Nat.ofDigitChars_append, hvalue,
        Nat.ofDigitChars_cons_digitChar_of_lt_ten lt]
  · rintro ⟨hne, hdigits, rfl⟩
    induction ds using List.reverseRecOn with
    | nil => exact absurd rfl hne
    | append_singleton ds c ih =>
      simp only [List.all_append, List.all_cons, List.all_nil, Bool.and_true,
        Bool.and_eq_true] at hdigits
      obtain ⟨d, hd, rfl⟩ := Text.exists_digit_of_isDigit hdigits.2
      rw [Nat.ofDigitChars_append, Nat.ofDigitChars_cons_digitChar_of_lt_ten hd,
        Nat.ofDigitChars_nil]
      by_cases hds : ds = []
      · subst hds
        simpa using Numeral.digit hd
      · exact .append (ih hds hdigits.1) hd

/-- A run of digits is taken for an index exactly if it is the numeral of one. -/
theorem index?_eq_ok_iff {ds : List Char} {s : Segment} (hne : ds ≠ [])
    (hdigits : ds.all Text.isDigit) :
    index? ds = .ok s ↔ ∃ i : UInt64, s = .index i ∧ Numeral ds i.toNat := by
  have hnumeral (i : UInt64) : Numeral ds i.toNat ↔ Nat.ofDigitChars 10 ds 0 = i.toNat := by
    simp [numeral_iff, hne, hdigits]
  simp only [hnumeral, index?]
  split
  · next hlt =>
    constructor
    · intro h
      cases h
      exact ⟨_, rfl, (UInt64.toNat_ofNat_of_lt hlt).symm⟩
    · rintro ⟨i, rfl, hi⟩
      rw [hi, UInt64.ofNat_toNat]
  · next hge =>
    refine iff_of_false (by simp) ?_
    rintro ⟨i, -, hi⟩
    exact hge (hi ▸ i.toNat_lt)

/-! ## Bare segments -/

/-- A text that can follow a segment: it is empty or starts with a dot or an opening
    bracket. -/
def StartsElement (cs : List Char) : Prop :=
  ∀ c, cs.head? = some c → c = '.' ∨ c = '['

theorem not_isReserved_of_isDigit {c : Char} (h : Text.isDigit c) : isReserved c = false := by
  obtain ⟨d, hd, rfl⟩ := Text.exists_digit_of_isDigit h
  revert d
  decide

theorem SpellsBare.not_isReserved {run : List Char} {s : Segment} (h : SpellsBare run s) :
    ∀ c ∈ run, isReserved c = false := by
  cases h with
  | index numeral =>
    obtain ⟨-, hdigits, -⟩ := numeral_iff.1 numeral
    exact fun c hc => not_isReserved_of_isDigit (List.all_eq_true.1 hdigits c hc)
  | key free _ => exact free

theorem SpellsBare.ne_nil {run : List Char} {s : Segment} (h : SpellsBare run s) : run ≠ [] := by
  cases h with
  | index numeral => exact (numeral_iff.1 numeral).1
  | key _ notDigits =>
    obtain ⟨c, hc, -⟩ := notDigits
    exact List.ne_nil_of_mem hc

/-- What is read as a bare segment is one. -/
theorem spellsBare_of_bare {n : Nat} {cs : List Char} {e : Element cs} (h : bare n cs = .ok e) :
    ∃ run, cs = run ++ e.rest ∧ SpellsBare run e.segment := by
  obtain ⟨run, rest, rfl, hrun, hend⟩ := Text.exists_run (!isReserved ·) cs
  unfold bare at h
  simp only [Text.takeWhile_run hrun hend, Text.dropWhile_run hrun hend] at h
  split at h
  · nomatch h
  · nomatch h
  · split at h
    · nomatch h
    · next hne =>
      rw [List.isEmpty_iff] at hne
      split at h
      · next hdigits =>
        obtain ⟨s, hindex, rfl⟩ := Except.map_eq_ok_iff.1 h
        obtain ⟨i, rfl, hnumeral⟩ := (index?_eq_ok_iff hne hdigits).1 hindex
        exact ⟨run, rfl, .index hnumeral⟩
      · next hdigits =>
        cases h
        refine ⟨run, rfl, .key (fun c hc => ?_) ?_⟩
        · simpa using List.all_eq_true.1 hrun c hc
        · simpa using hdigits

/-- A bare segment is read, if it ends where the next element starts. -/
theorem bare_of_spellsBare (n : Nat) {run rest : List Char} {s : Segment} (h : SpellsBare run s)
    (hrest : StartsElement rest) :
    ∃ e, bare n (run ++ rest) = .ok e ∧ e.segment = s ∧ e.rest = rest := by
  have hrun : run.all (!isReserved ·) := by
    rw [List.all_eq_true]
    intro c hc
    simp [h.not_isReserved c hc]
  have hend : ∀ c, rest.head? = some c → (!isReserved c) = false := by
    intro c hc
    rcases hrest c hc with rfl | rfl <;> decide
  unfold bare
  simp only [Text.takeWhile_run hrun hend, Text.dropWhile_run hrun hend]
  split
  · next hhead => exact absurd (hrest _ hhead) (by decide)
  · next hhead => exact absurd (hrest _ hhead) (by decide)
  · have hne := h.ne_nil
    cases h with
    | index numeral =>
      obtain ⟨-, hdigits, -⟩ := numeral_iff.1 numeral
      have hindex := (index?_eq_ok_iff hne hdigits).2 ⟨_, rfl, numeral⟩
      simp only [List.isEmpty_iff, hne, hdigits, hindex, if_false, if_true]
      exact ⟨_, rfl, rfl, rfl⟩
    | key _ notDigits =>
      obtain ⟨c, hc, hdigit⟩ := notDigits
      have hall : run.all Text.isDigit = false := List.all_eq_false.2 ⟨c, hc, by simp [hdigit]⟩
      simp only [List.isEmpty_iff, hne, hall, if_false, Bool.false_eq_true]
      exact ⟨_, rfl, rfl, rfl⟩

/-! ## Brackets -/

/-- What is read as a key up to its quote is one. -/
theorem spellsKey_of_unquote {cs key rest : List Char} {n : Nat}
    (h : unquote cs = some (key, n, rest)) :
    ∃ quoted, cs = quoted ++ '\'' :: rest ∧ SpellsKey quoted key := by
  fun_induction unquote cs generalizing key n with
  | case1 | case3 => cases h
  | case2 rest =>
    cases h
    exact ⟨[], rfl, .nil⟩
  | case4 c cs ih =>
    obtain ⟨⟨key, m, rest⟩, hrest, he⟩ := Option.map_eq_some_iff.1 h
    cases he
    obtain ⟨quoted, rfl, hquoted⟩ := ih hrest
    exact ⟨'\\' :: c :: quoted, rfl, .escaped c hquoted⟩
  | case5 c cs hquote hlast hescape ih =>
    obtain ⟨⟨key, m, rest⟩, hrest, he⟩ := Option.map_eq_some_iff.1 h
    cases he
    obtain ⟨quoted, rfl, hquoted⟩ := ih hrest
    have hbackslash : c ≠ '\\' := by
      rintro rfl
      obtain ⟨d, ds, hcs⟩ := List.exists_cons_of_ne_nil
        (List.append_ne_nil_of_right_ne_nil quoted (List.cons_ne_nil '\'' rest))
      exact hescape d ds rfl hcs
    exact ⟨c :: quoted, rfl, .plain hquote hbackslash hquoted⟩

/-- A key is read up to its quote. -/
theorem unquote_of_spellsKey {quoted key : List Char} (h : SpellsKey quoted key)
    (rest : List Char) : ∃ n, unquote (quoted ++ '\'' :: rest) = some (key, n, rest) := by
  induction h with
  | nil => exact ⟨1, rfl⟩
  | escaped c _ ih =>
    obtain ⟨n, ih⟩ := ih
    exact ⟨1 + c.utf8Size + n, by simp [unquote, ih]⟩
  | @plain c _ _ notQuote notBackslash _ ih =>
    obtain ⟨n, ih⟩ := ih
    exact ⟨c.utf8Size + n, by simp [unquote, notBackslash, ih]⟩

/-- A bracket that holds no quote holds an index. -/
theorem bracket_of_head (n : Nat) {cs : List Char} (h : cs.head? ≠ some '\'') :
    bracket n cs =
      if (cs.takeWhile Text.isDigit).isEmpty then .error (.expectedIndex n)
      else (index? (cs.takeWhile Text.isDigit)).bind fun s =>
        closeBracket s (n + byteLength (cs.takeWhile Text.isDigit)) (cs.dropWhile Text.isDigit)
          (List.dropWhile_suffix _).length_le := by
  unfold bracket
  split
  · exact absurd rfl h
  · rfl

/-- A bracket that starts with a quote holds the key up to the next one. -/
theorem bracket_of_quote (n : Nat) {cs key rest : List Char} {size : Nat}
    (h : unquote cs = some (key, size, rest)) :
    bracket n ('\'' :: cs) = closeBracket (.key (String.ofList key)) (n + 1 + size) rest
      (show rest.length ≤ ('\'' :: cs).length from Nat.le_succ_of_le (unquote_le h)) := by
  unfold bracket
  simp only
  split
  · next h' =>
    rw [h] at h'
    nomatch h'
  · next h' =>
    rw [h] at h'
    cases h'
    rfl

theorem bracket_of_no_quote (n : Nat) {cs : List Char} (h : unquote cs = none) :
    bracket n ('\'' :: cs) = .error .unterminatedKey := by
  unfold bracket
  simp only
  split
  · rfl
  · next h' =>
    rw [h] at h'
    nomatch h'

/-- A bracket is closed at the next character or not at all. -/
theorem of_closeBracket {s : Segment} {n : Nat} {cs rest : List Char}
    {le : rest.length ≤ cs.length} {e : Element cs} (h : closeBracket s n rest le = .ok e) :
    rest = ']' :: e.rest ∧ e.segment = s := by
  unfold closeBracket at h
  split at h
  · nomatch h
  · cases h
    exact ⟨rfl, rfl⟩
  · nomatch h

/-- What is read as a bracket is one. -/
theorem spellsBracket_of_bracket {n : Nat} {cs : List Char} {e : Element cs}
    (h : bracket n cs = .ok e) :
    ∃ inside, '[' :: cs = inside ++ e.rest ∧ SpellsBracket inside e.segment := by
  by_cases hhead : cs.head? = some '\''
  · obtain ⟨cs, rfl⟩ := List.head?_eq_some_iff.1 hhead
    cases hkey : unquote cs with
    | none =>
      rw [bracket_of_no_quote n hkey] at h
      nomatch h
    | some read =>
      obtain ⟨key, size, rest⟩ := read
      rw [bracket_of_quote n hkey] at h
      obtain ⟨quoted, rfl, hquoted⟩ := spellsKey_of_unquote hkey
      obtain ⟨hrest, hs⟩ := of_closeBracket h
      refine ⟨['[', '\''] ++ quoted ++ ['\'', ']'], by simpa using hrest, ?_⟩
      rw [hs]
      exact .key hquoted
  · rw [bracket_of_head n hhead] at h
    obtain ⟨ds, rest, rfl, hdigits, hend⟩ := Text.exists_run Text.isDigit cs
    simp only [Text.takeWhile_run hdigits hend, Text.dropWhile_run hdigits hend] at h
    split at h
    · nomatch h
    · next hne =>
      rw [List.isEmpty_iff] at hne
      obtain ⟨s, hindex, hclose⟩ := Except.bind_eq_ok_iff.1 h
      obtain ⟨i, rfl, hnumeral⟩ := (index?_eq_ok_iff hne hdigits).1 hindex
      obtain ⟨hrest, hs⟩ := of_closeBracket hclose
      refine ⟨'[' :: ds ++ [']'], by simpa using hrest, ?_⟩
      rw [hs]
      exact .index hnumeral

/-- A segment in brackets is read, whatever follows it. -/
theorem bracket_of_spellsBracket {inside : List Char} {s : Segment} (h : SpellsBracket inside s) :
    ∃ cs, inside = '[' :: cs ∧ ∀ (n : Nat) (rest : List Char),
      ∃ e, bracket n (cs ++ rest) = .ok e ∧ e.segment = s ∧ e.rest = rest := by
  cases h with
  | @index ds i numeral =>
    refine ⟨ds ++ [']'], rfl, fun n rest => ?_⟩
    obtain ⟨hne, hdigits, -⟩ := numeral_iff.1 numeral
    have hindex := (index?_eq_ok_iff hne hdigits).2 ⟨_, rfl, numeral⟩
    have hend : ∀ c, (']' :: rest).head? = some c → Text.isDigit c = false := by
      rintro c ⟨⟩
      decide
    have hhead : (ds ++ ']' :: rest).head? ≠ some '\'' := by
      obtain ⟨d, ds, rfl⟩ := List.exists_cons_of_ne_nil hne
      rintro ⟨⟩
      simp [Text.isDigit] at hdigits
    rw [List.append_assoc, List.singleton_append, bracket_of_head n hhead]
    simp only [Text.takeWhile_run hdigits hend, Text.dropWhile_run hdigits hend,
      List.isEmpty_iff, hne, hindex, if_false]
    exact ⟨_, rfl, rfl, rfl⟩
  | @key cs key quoted =>
    refine ⟨'\'' :: cs ++ ['\'', ']'], rfl, fun n rest => ?_⟩
    obtain ⟨m, hm⟩ := unquote_of_spellsKey quoted (']' :: rest)
    have hcs : '\'' :: cs ++ ['\'', ']'] ++ rest = '\'' :: (cs ++ '\'' :: ']' :: rest) := by simp
    rw [hcs, bracket_of_quote n hm]
    exact ⟨_, rfl, rfl, rfl⟩

/-! ## Paths -/

theorem elements_dot (n : Nat) {cs : List Char} {e : Element cs} (he : bare (n + 1) cs = .ok e) :
    elements n ('.' :: cs) = (elements e.position e.rest).map (e.segment :: ·) := by
  rw [elements, he]
  rfl

theorem elements_bracket (n : Nat) {cs : List Char} {e : Element cs}
    (he : bracket (n + 1) cs = .ok e) :
    elements n ('[' :: cs) = (elements e.position e.rest).map (e.segment :: ·) := by
  rw [elements, he]
  rfl

theorem ofChars_of_bracket {cs : List Char} :
    ofChars ('[' :: cs) = (elements 0 ('[' :: cs)).map KeyPath.mk := by
  have hb : Text.allBlank ('[' :: cs) = false := rfl
  rw [ofChars, hb]
  rfl

theorem ofChars_of_bare {cs : List Char} {e : Element cs} (hb : Text.allBlank cs = false)
    (hh : cs.head? ≠ some '[') (he : bare 0 cs = .ok e) :
    ofChars cs = (elements e.position e.rest).map fun more => ⟨e.segment :: more⟩ := by
  rw [ofChars, hb, if_neg hh, he]
  rfl

/-- What is read as elements are some. -/
theorem spellsElements_of_elements {n : Nat} {cs : List Char} {ss : List Segment}
    (h : elements n cs = .ok ss) : SpellsElements cs ss := by
  fun_induction elements n cs generalizing ss with
  | case1 =>
    cases h
    exact .nil
  | case2 n rest ih =>
    obtain ⟨e, he, h⟩ := Except.bind_eq_ok_iff.1 h
    obtain ⟨more, hmore, h⟩ := Except.bind_eq_ok_iff.1 h
    cases h
    obtain ⟨run, hrest, hrun⟩ := spellsBare_of_bare he
    have hall := SpellsElements.dot hrun (ih e hmore)
    rwa [List.cons_append, ← hrest] at hall
  | case3 n rest ih =>
    obtain ⟨e, he, h⟩ := Except.bind_eq_ok_iff.1 h
    obtain ⟨more, hmore, h⟩ := Except.bind_eq_ok_iff.1 h
    cases h
    obtain ⟨inside, hrest, hinside⟩ := spellsBracket_of_bracket he
    have hall := SpellsElements.bracket hinside (ih e hmore)
    rwa [← hrest] at hall
  | case4 => nomatch h

/-- Elements start as the text behind a segment does. -/
theorem SpellsElements.startsElement {cs : List Char} {ss : List Segment}
    (h : SpellsElements cs ss) : StartsElement cs := by
  intro c hc
  cases h with
  | nil => nomatch hc
  | dot => exact .inl (Option.some.inj hc).symm
  | bracket first =>
    obtain ⟨inside, rfl, -⟩ := bracket_of_spellsBracket first
    exact .inr (Option.some.inj hc).symm

/-- Elements are read. -/
theorem elements_of_spellsElements {cs : List Char} {ss : List Segment}
    (h : SpellsElements cs ss) (n : Nat) : elements n cs = .ok ss := by
  induction h generalizing n with
  | nil => rw [elements]
  | dot first more ih =>
    obtain ⟨e, he, hs, hrest⟩ := bare_of_spellsBare (n + 1) first more.startsElement
    rw [List.cons_append, elements_dot n he, hrest, ih, hs]
    rfl
  | @bracket _ rest _ _ first more ih =>
    obtain ⟨cs, rfl, hread⟩ := bracket_of_spellsBracket first
    obtain ⟨e, he, hs, hrest⟩ := hread (n + 1) rest
    rw [List.cons_append, elements_bracket n he, hrest, ih, hs]
    rfl

/-- What is read as a path is one. -/
theorem spells_of_ofChars {cs : List Char} {p : KeyPath} (h : ofChars cs = .ok p) :
    Spells cs p := by
  unfold ofChars at h
  cases hblank : Text.allBlank cs with
  | true =>
    rw [hblank] at h
    cases h
    exact .root hblank
  | false =>
    rw [hblank] at h
    simp only [Bool.false_eq_true, if_false] at h
    split at h
    · next hhead =>
      obtain ⟨rest, rfl⟩ := List.head?_eq_some_iff.1 hhead
      obtain ⟨ss, hss, h⟩ := Except.bind_eq_ok_iff.1 h
      cases h
      generalize hcs : '[' :: rest = cs at hblank hss ⊢
      cases spellsElements_of_elements hss with
      | nil => nomatch hcs
      | dot first more => nomatch hcs
      | bracket first more => exact .path hblank (.inr first) more
    · obtain ⟨e, he, h⟩ := Except.bind_eq_ok_iff.1 h
      obtain ⟨more, hmore, h⟩ := Except.bind_eq_ok_iff.1 h
      cases h
      obtain ⟨run, hcs, hrun⟩ := spellsBare_of_bare he
      have hpath := Spells.path (hcs ▸ hblank) (.inl hrun) (spellsElements_of_elements hmore)
      rwa [← hcs] at hpath

/-- A path is read. -/
theorem ofChars_of_spells {cs : List Char} {p : KeyPath} (h : Spells cs p) :
    ofChars cs = .ok p := by
  cases h with
  | root blank =>
    rw [ofChars, blank]
    rfl
  | @path cs rest s ss notBlank first more =>
    rcases first with first | first
    · obtain ⟨e, he, hs, hrest⟩ := bare_of_spellsBare 0 first more.startsElement
      have hhead : (cs ++ rest).head? ≠ some '[' := by
        obtain ⟨c, cs, rfl⟩ := List.exists_cons_of_ne_nil first.ne_nil
        rintro ⟨⟩
        exact absurd (first.not_isReserved '[' List.mem_cons_self) (by decide)
      rw [ofChars_of_bare notBlank hhead he, hrest, elements_of_spellsElements more, hs]
      rfl
    · obtain ⟨inside, rfl, -⟩ := bracket_of_spellsBracket first
      have h := elements_of_spellsElements (.bracket first more) 0
      rw [List.cons_append] at h ⊢
      rw [ofChars_of_bracket, h]
      rfl

/-- A text is read as a path exactly if it spells the path. A text that spells none is
    refused, wherever a path is given by its text, with an error that holds the text. -/
theorem parse_eq_ok_iff_spells (t : String) :
    (∀ p, parse t = .ok p ↔ Spells t.toList p) ∧
      ((∀ p, ¬ Spells t.toList p) ↔ ∃ cause, parse t = .error cause ∧
        (∀ d : Document, d.lookupPath t = .error (.invalidPath t cause)) ∧
        ∀ (s : Schema) (target : Schema.Target),
          s.requireTexts target [t] = (s, .error (.invalidPath t cause))) := by
  have hiff (p : KeyPath) : parse t = .ok p ↔ Spells t.toList p :=
    ⟨spells_of_ofChars, ofChars_of_spells⟩
  refine ⟨hiff, ?_⟩
  simp only [← hiff]
  constructor
  · intro hnone
    cases hparse : parse t with
    | ok p => exact absurd hparse (hnone p)
    | error cause =>
      refine ⟨cause, rfl, fun d => ?_, fun s target => ?_⟩
      · rw [Document.lookupPath, hparse]
      · rw [Schema.requireTexts, hparse]
  · rintro ⟨cause, herror, -⟩ p hp
    rw [hp] at herror
    nomatch herror

end ManifestBundle.KeyPath
