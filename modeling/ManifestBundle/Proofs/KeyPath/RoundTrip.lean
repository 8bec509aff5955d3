import ManifestBundle.Proofs.KeyPath.Grammar

/-!
# Reading back the text of a key path

The text of a path spells the path, segment by segment (`spells_segment`): an index by its
digits, a key in quotes by its characters with the escapes, and a bare key up to the dot or
bracket of the next segment. So it is read back as the path.

There is one exception. A key of blanks only needs no quotes, and where it is the
whole path, the text is blank and so is that of the root (`isLoneBlank`).
-/

namespace ManifestBundle.KeyPath

/-! ## Segments -/

theorem numeral_toDigits (n : Nat) : Numeral (Nat.toDigits 10 n) n :=
  numeral_iff.2 ⟨Nat.toDigits_ne_nil, Text.all_isDigit_toDigits n, Nat.ofDigitChars_ten_toDigits⟩

/-- A key is spelled by escaping its quotes and backslashes. -/
theorem spellsKey_escape (key : List Char) : SpellsKey (key.flatMap escape) key := by
  induction key with
  | nil => exact .nil
  | cons c key ih =>
    rw [List.flatMap_cons, escape]
    split
    · exact .escaped c ih
    · next h =>
      obtain ⟨hquote, hbackslash⟩ : c ≠ '\'' ∧ c ≠ '\\' := by simpa using h
      exact .plain hquote hbackslash ih

/-- A segment is written in brackets, or bare and with a dot before it unless it comes
    first. -/
theorem spells_segment (s : Segment) :
    (∀ first, SpellsBracket (segmentChars first s) s) ∨
      SpellsBare (segmentChars true s) s ∧ segmentChars false s = '.' :: segmentChars true s := by
  cases s with
  | index i => exact .inl fun _ => .index (numeral_toDigits i.toNat)
  | key k =>
    by_cases hquotes : needsQuotes k.toList
    · left
      intro first
      have h := SpellsBracket.key (spellsKey_escape k.toList)
      rw [String.ofList_toList] at h
      rwa [segmentChars, if_pos hquotes]
    · right
      simp only [segmentChars, hquotes, if_true, if_false, Bool.false_eq_true, and_true]
      rw [Bool.not_eq_true, needsQuotes, Bool.or_eq_false_iff, List.all_eq_false,
        List.any_eq_false] at hquotes
      obtain ⟨hdigit, hplain⟩ := hquotes
      have h := SpellsBare.key (fun c hc => by simpa using hplain c hc) (by simpa using hdigit)
      rwa [String.ofList_toList] at h

/-! ## Paths -/

/-- Segments behind another one are spelled with dots and brackets. -/
theorem spellsElements_segments (ss : List Segment) :
    SpellsElements (ss.flatMap (segmentChars false)) ss := by
  induction ss with
  | nil => exact .nil
  | cons s ss ih =>
    rw [List.flatMap_cons]
    rcases spells_segment s with h | ⟨h, hdot⟩
    · exact .bracket (h false) ih
    · rw [hdot]
      exact .dot h ih

/-- A path whose text is not blank is spelled by it. -/
theorem spells_chars {p : KeyPath} (hb : Text.allBlank p.chars = false) : Spells p.chars p := by
  obtain ⟨ss⟩ := p
  cases ss with
  | nil => nomatch hb
  | cons s ss =>
    refine .path hb ?_ (spellsElements_segments ss)
    exact (spells_segment s).symm.imp And.left fun h => h true

/-- The only segment of the path is a key that holds blanks and nothing else. -/
def isLoneBlank (p : KeyPath) : Bool :=
  match p.segments with
  | [.key k] => k ≠ "" && Text.allBlank k.toList
  | _ => false

theorem isBlank_of_isDigit {c : Char} (h : Text.isDigit c) : Text.isBlank c = false := by
  simp only [Text.isDigit, Char.le_def, UInt32.le_iff_toNat_le, Bool.and_eq_true,
    decide_eq_true_eq] at h
  obtain ⟨hlo, hhi⟩ := h
  change 48 ≤ c.toNat at hlo
  change c.toNat ≤ 57 at hhi
  simp only [Text.isBlank, Bool.or_eq_false_iff, Bool.and_eq_false_iff, decide_eq_false_iff_not,
    beq_eq_false_iff_ne]
  omega

theorem isBlank_of_isReserved {c : Char} (h : isReserved c) : Text.isBlank c = false := by
  simp only [isReserved, Bool.or_eq_true, beq_iff_eq] at h
  rcases h with ((rfl | rfl) | rfl) | rfl <;> decide

/-- A key in quotes is empty or holds a character that is no blank. -/
theorem allBlank_of_needsQuotes {key : List Char} (h : needsQuotes key) (hne : key ≠ []) :
    Text.allBlank key = false := by
  rw [needsQuotes, Bool.or_eq_true] at h
  rw [Text.allBlank, List.all_eq_false]
  rcases h with h | h
  · obtain ⟨c, cs, rfl⟩ := List.exists_cons_of_ne_nil hne
    have hc := List.all_eq_true.1 h c List.mem_cons_self
    exact ⟨c, List.mem_cons_self, by simp [isBlank_of_isDigit hc]⟩
  · obtain ⟨c, hc, hr⟩ := List.any_eq_true.1 h
    exact ⟨c, hc, by simp [isBlank_of_isReserved hr]⟩

/-- The text of a path is blank only for the root and for a lone key of blanks. -/
theorem allBlank_chars (p : KeyPath) : Text.allBlank p.chars = (p.isRoot || p.isLoneBlank) := by
  obtain ⟨ss⟩ := p
  match ss with
  | [] => rfl
  | s :: t :: ss =>
    -- The second segment starts with a dot or a bracket.
    have hstart : ∃ c cs, segmentChars false t = c :: cs ∧ Text.isBlank c = false := by
      cases t with
      | index i => exact ⟨_, _, rfl, by decide⟩
      | key k =>
        rw [segmentChars]
        split
        · exact ⟨_, _, rfl, by decide⟩
        · exact ⟨_, _, rfl, by decide⟩
    obtain ⟨c, cs, ht, hc⟩ := hstart
    simp [chars, Text.allBlank, ht, hc, isRoot, isLoneBlank]
  | [.index i] => rfl
  | [.key k] =>
    by_cases hk : needsQuotes k.toList
    · -- The quotes show, and such a key is not blank.
      have hlone : (k ≠ "" && Text.allBlank k.toList) = false := by
        by_cases hne : k.toList = []
        · simp [String.toList_eq_nil_iff.1 hne]
        · simp [allBlank_of_needsQuotes hk hne]
      simp only [chars, segmentChars, hk, if_true, isRoot, isLoneBlank, hlone]
      rfl
    · have hne : k ≠ "" := by
        rintro rfl
        exact hk rfl
      simp [chars, segmentChars, hk, isRoot, isLoneBlank, hne]

/-- The text of a path is read back as the path, but for a blank key alone, which is read as the
    root. -/
theorem parse_text_eq (p : KeyPath) : parse p.text = .ok (if p.isLoneBlank then root else p) := by
  rw [parse, text, String.toList_ofList]
  have hb := allBlank_chars p
  cases hlone : p.isLoneBlank with
  | true =>
    rw [hlone, Bool.or_true] at hb
    simp [ofChars, hb]
    rfl
  | false =>
    cases hroot : p.isRoot with
    | true =>
      have hp : p = root := by
        obtain ⟨ss⟩ := p
        simp_all [isRoot, root]
      rw [hp]
      rfl
    | false =>
      rw [hlone, hroot] at hb
      exact ofChars_of_spells (spells_chars hb)

theorem root_ne_of_isLoneBlank {p : KeyPath} (h : p.isLoneBlank) : root ≠ p := by
  rintro rfl
  simp [isLoneBlank, root] at h

/-- The text of a path is read back as the path, unless the path is a lone key of
    blanks: the text of that is read as the root. -/
theorem parse_text (p : KeyPath) :
    parse p.text = .ok (if p.isLoneBlank then root else p) ∧
      (parse p.text = .ok p ↔ p.isLoneBlank = false) := by
  refine ⟨parse_text_eq p, ?_⟩
  rw [parse_text_eq]
  cases h : p.isLoneBlank with
  | true => simpa using root_ne_of_isLoneBlank h
  | false => simp

/-- A lone key of blanks can be spelled, in quotes, but its own text spells the root. -/
theorem parse_text_blank_key :
    parse "[' ']" = .ok ⟨[.key " "]⟩ ∧ ¬ ∀ t p, parse t = .ok p → parse p.text = .ok p := by
  have h : parse "[' ']" = .ok ⟨[.key " "]⟩ := by
    decide +kernel
  refine ⟨h, fun hall => ?_⟩
  exact absurd (hall _ _ h) (by decide +kernel)

end ManifestBundle.KeyPath
