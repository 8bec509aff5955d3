import ManifestBundle.Proofs.Yaml.BlockScalar
import ManifestBundle.Proofs.Yaml.Plain
import ManifestBundle.Proofs.Yaml.Quoted

/-!
# The spelling of a text

What a text has to do with its spelling: the form it must have for its style, and the
characters that the spelling is made of. All of them are printable, and those of a key
that stands in front of a colon are no line breaks and not too many.
-/

namespace ManifestBundle.Yaml

variable {cs : List Char}

/-! ## Styles -/

/-- What is written plain could not be taken for anything but a text. -/
theorem not_isAmbiguous_of_plain (h : ScalarStyle.of cs = .plain) : isAmbiguous cs = false := by
  rw [ScalarStyle.of] at h
  split_ifs at h with hbreak hliteral hplain
  rw [Bool.and_eq_true, Bool.not_eq_true'] at hplain
  exact hplain.1

/-- What is written plain needs no quotes to be told from what is around it. -/
theorem fitsPlain_of_plain (h : ScalarStyle.of cs = .plain) : fitsPlain cs := by
  rw [ScalarStyle.of] at h
  split_ifs at h with hbreak hliteral hplain
  rw [Bool.and_eq_true] at hplain
  exact hplain.2

theorem ne_nil_of_plain (h : ScalarStyle.of cs = .plain) : cs ≠ [] := by
  rintro rfl
  exact absurd (not_isAmbiguous_of_plain h) (by decide)

/-- What is written between single quotes has none of the characters that must be escaped. -/
theorem singlePart_of_single (h : ScalarStyle.of cs = .single) : SinglePart cs := by
  rw [ScalarStyle.of] at h
  split_ifs at h with hbreak hliteral hplain hsingle
  simp only [fitsSingle, Bool.and_eq_true, Bool.not_eq_true'] at hsingle
  exact ⟨hsingle.1.1, by simpa using hbreak, hsingle.1.2, hsingle.2⟩

/-- What is written line by line can be, and there is something to write. -/
theorem fitsLiteral_of_literal (h : ScalarStyle.of cs = .literal) :
    fitsLiteral cs ∧ cs ≠ [] := by
  rw [ScalarStyle.of] at h
  split_ifs at h with hbreak hliteral
  refine ⟨hliteral, ?_⟩
  rintro rfl
  simp at hbreak

/-- A text of one line is not written as a block of lines. -/
theorem not_literal_of_line (h : cs.any isBreak = false) : ScalarStyle.of cs ≠ .literal := by
  intro hstyle
  rw [ScalarStyle.of] at hstyle
  split_ifs at hstyle with hbreak hliteral
  rw [List.contains_iff_mem] at hbreak
  exact List.any_eq_false.1 h '\n' hbreak isBreak_newline

theorem plainPart_of_fitsPlain (h : fitsPlain cs) : PlainPart cs := by
  simp only [fitsPlain, Bool.and_eq_true, Bool.not_eq_true', decide_eq_true_eq] at h
  exact ⟨h.1.1.1.1.1, h.1.1.1.2, h.2⟩

theorem head_of_fitsPlain (h : fitsPlain cs) (hne : cs ≠ []) :
    cs.head?.any fun c => !isWhite c := by
  obtain ⟨c, ds, rfl⟩ := List.exists_cons_of_ne_nil hne
  simp only [fitsPlain, Bool.and_eq_true, decide_eq_true_eq] at h
  have hwhite := isWhite_of_isPrintable (List.all_eq_true.1 h.1.1.1.1.1 c List.mem_cons_self)
  simpa [hwhite] using h.1.1.1.1.2

/-! ## The spelling -/

/-- A text that is written plain starts with neither space nor comment. -/
theorem startsToken_of_fitsPlain (hfits : fitsPlain cs) (hne : cs ≠ []) (tail : List Char) :
    StartsToken (cs ++ tail) := by
  have hhead := head_of_fitsPlain hfits hne
  obtain ⟨c, ds, rfl⟩ := List.exists_cons_of_ne_nil hne
  simp only [fitsPlain, startsAsIndicator, Bool.and_eq_true, Bool.not_eq_true',
    Bool.or_eq_false_iff] at hfits
  obtain ⟨⟨⟨⟨⟨hprint, -⟩, -⟩, -⟩, ⟨-, hlist⟩, -⟩, -⟩ := hfits
  refine startsToken_cons (by simpa using hhead) ?_ ?_
  · rintro rfl
    exact absurd hlist (by decide)
  · rintro rfl
    exact absurd (List.all_eq_true.1 hprint '\ufeff' List.mem_cons_self) (by decide)

/-- No space or comment stands in front of a scalar. -/
theorem startsToken_scalarText (indent : Nat) (cs tail : List Char) :
    StartsToken (scalarText indent cs ++ tail) := by
  rw [scalarText]
  cases h : ScalarStyle.of cs with
  | plain => exact startsToken_of_fitsPlain (fitsPlain_of_plain h) (ne_nil_of_plain h) tail
  | single => exact startsToken_cons (by decide) (by decide) (by decide)
  | double => exact startsToken_cons (by decide) (by decide) (by decide)
  | literal => exact startsToken_cons (by decide) (by decide) (by decide)

theorem length_scalarText_pos (indent : Nat) (cs : List Char) :
    0 < (scalarText indent cs).length := by
  rw [scalarText]
  cases h : ScalarStyle.of cs with
  | single => exact Nat.succ_pos _
  | double => exact Nat.succ_pos _
  | literal => exact Nat.succ_pos _
  | plain => exact List.length_pos_of_ne_nil (ne_nil_of_plain h)

/-- Only a literal block may bring the end of its last line with it. -/
theorem endLine_scalarText {indent : Nat} (h : ScalarStyle.of cs ≠ .literal) :
    endLine (scalarText indent cs) = scalarText indent cs ++ ['\n'] := by
  have hlast : (scalarText indent cs).getLast?.any isBreak = false := by
    rw [scalarText]
    cases hstyle : ScalarStyle.of cs with
    | literal => exact absurd hstyle h
    | single => simp only [singleText, List.getLast?_concat, Option.any_some, isBreak]; decide
    | double => simp only [doubleText, List.getLast?_concat, Option.any_some, isBreak]; decide
    | plain =>
      have hprint := (plainPart_of_fitsPlain (fitsPlain_of_plain hstyle)).printable
      rw [Option.any_eq_false]
      intro c hc
      have hc' := List.all_eq_true.1 hprint c (List.mem_of_getLast? hc)
      simp_all
  rw [endLine, hlast, if_neg Bool.false_ne_true]

/-- Indenting lines drops nothing. -/
theorem length_le_indentLines (indent : Nat) (lineStart : Bool) (cs : List Char) :
    cs.length ≤ (indentLines indent lineStart cs).length := by
  induction cs generalizing lineStart with
  | nil => exact Nat.le_refl _
  | cons c cs ih =>
    rw [indentLines]
    split
    · exact Nat.succ_le_succ (ih true)
    · rw [List.length_append, List.length_cons, List.length_cons]
      have := ih false
      omega

/-! ## Characters -/

theorem all_isPrintable_pad (n : Nat) : (pad n).all isPrintable := by
  rw [List.all_eq_true]
  intro c hc
  rw [List.eq_of_mem_replicate hc]
  decide

theorem all_isPrintable_indentLines (indent : Nat) (lineStart : Bool) {cs : List Char}
    (h : cs.all isPrintable) : (indentLines indent lineStart cs).all isPrintable := by
  induction cs generalizing lineStart with
  | nil => rfl
  | cons c cs ih =>
    rw [List.all_cons, Bool.and_eq_true] at h
    rw [indentLines]
    split
    · rw [List.all_cons, h.1, ih _ h.2, Bool.and_true]
    · cases lineStart <;> simp [h.1, ih _ h.2, all_isPrintable_pad]

/-- Between double quotes all that is not printable is escaped. -/
theorem all_isPrintable_doubleText (cs : List Char) : (doubleText cs).all isPrintable := by
  have hcode : (cs.flatMap doubleChar).all isPrintable := by
    rw [List.all_flatMap, List.all_eq_true]
    exact fun c _ => (doubleCode c).all_isPrintable
  have hquote : isPrintable '"' := by decide
  simp only [doubleText, List.all_append, List.all_cons, List.all_nil, hcode, hquote, Bool.and_self]

theorem all_isPrintable_singleText (indent : Nat) (h : cs.all isPrintable) :
    (singleText indent cs).all isPrintable := by
  have hquote : isPrintable '\'' := by decide
  have hdoubled : (cs.flatMap fun c => if c = '\'' then ['\'', '\''] else [c]).all isPrintable := by
    rw [List.all_flatMap, List.all_eq_true]
    intro c hc
    split
    · decide
    · simpa using List.all_eq_true.1 h c hc
  have hbody := all_isPrintable_indentLines indent false hdoubled
  rw [singleText]
  split_ifs <;> simp only [List.all_append, List.all_cons, List.all_nil, hbody, hquote,
    all_isPrintable_pad, Bool.and_self]

theorem all_isPrintable_literalText (indent : Nat) (h : cs.all isPrintable) :
    (literalText indent cs).all isPrintable := by
  have hheader : (literalHeader cs).all isPrintable := by
    rw [literalHeader]
    split_ifs <;> split <;> first | decide | (split_ifs <;> decide)
  have hnewline : isPrintable '\n' := by decide
  rw [literalText, List.all_append, List.all_cons, hheader, hnewline,
    all_isPrintable_indentLines _ _ h]
  rfl

/-- The spelling of a text can stand in a stream. -/
theorem all_isPrintable_scalarText (indent : Nat) (cs : List Char) :
    (scalarText indent cs).all isPrintable := by
  rw [scalarText]
  cases h : ScalarStyle.of cs with
  | plain =>
    have hprint := (plainPart_of_fitsPlain (fitsPlain_of_plain h)).printable
    rw [List.all_eq_true] at hprint ⊢
    intro c hc
    have hc' := hprint c hc
    rw [Bool.and_eq_true] at hc'
    exact hc'.1
  | single => exact all_isPrintable_singleText indent (singlePart_of_single h).printable
  | double => exact all_isPrintable_doubleText cs
  | literal =>
    have hfits := (fitsLiteral_of_literal h).1
    simp only [fitsLiteral, Bool.and_eq_true] at hfits
    exact all_isPrintable_literalText indent hfits.1.1

/-! ## Keys on one line -/

/-- Between single quotes a line stands as it is, but for the quotes in it. -/
theorem singleText_line (indent : Nat) (h : cs.any isBreak = false) :
    singleText indent cs = '\'' :: cs.flatMap singleChar ++ ['\''] := by
  have hbody : singleBody indent false (cs ++ []) = cs.flatMap singleChar ++ [] :=
    singleBody_word h []
  rw [List.append_nil, List.append_nil] at hbody
  rw [singleText_eq, hbody]

theorem any_isBreak_flatMap {f : Char → List Char} (hf : ∀ c ∈ cs, (f c).any isBreak = false) :
    (cs.flatMap f).any isBreak = false := by
  rw [List.any_flatMap, List.any_eq_false]
  intro c hc
  rw [hf c hc]
  exact Bool.false_ne_true

/-- A text on one line is written on one line, unless it is written as a block. -/
theorem any_isBreak_scalarText (indent : Nat) (h : cs.any isBreak = false)
    (hstyle : ScalarStyle.of cs ≠ .literal) : (scalarText indent cs).any isBreak = false := by
  rw [scalarText]
  cases hof : ScalarStyle.of cs with
  | plain => exact h
  | literal => exact absurd hof hstyle
  | single =>
    have hquote : isBreak '\'' = false := by decide
    have hbody : (cs.flatMap singleChar).any isBreak = false := by
      refine any_isBreak_flatMap fun c hc => ?_
      have hc' := List.any_eq_false.1 h c hc
      rw [singleChar]
      split_ifs <;> simp_all
    simp [singleText_line indent h, hbody, hquote]
  | double =>
    have hquote : isBreak '"' = false := by decide
    have hbody : (cs.flatMap doubleChar).any isBreak = false :=
      any_isBreak_flatMap fun c _ => (doubleCode c).any_isBreak
    simp [doubleText, hbody, hquote]

/-- How many octets a character takes, by its code point. -/
theorem utf8Size_eq (c : Char) : c.utf8Size = if c.toNat ≤ 0x7f then 1
    else if c.toNat ≤ 0x7ff then 2 else if c.toNat ≤ 0xffff then 3 else 4 := by
  simp only [Char.utf8Size, UInt32.le_iff_toNat_le, UInt32.toNat_ofNatLT]
  rfl

/-- The longest escapes are those of characters that take many octets themselves. -/
theorem length_doubleChar_le (c : Char) : (doubleChar c).length ≤ 4 * c.utf8Size := by
  have hpos := Char.utf8Size_pos c
  have hvalid : c.toNat < 0x110000 := by
    have := c.valid
    simp only [UInt32.isValidChar, Nat.isValidChar] at this
    simp only [Char.toNat]
    omega
  have hlen {width : Nat} (hw : 0 < width) (h : c.toNat < 16 ^ width) :
      ((Text.paddedHex width c.toNat).map Char.toUpper).length = width := by
    rw [List.length_map, Text.length_paddedHex hw h]
  rw [doubleChar]
  split
  · rw [List.length_singleton]
    omega
  · split
    · simp only [List.length_cons, List.length_nil]
      omega
    · dsimp only
      split
      · rw [List.length_cons, List.length_cons, hlen (by decide) (by omega)]
        omega
      · split
        · have hsize : 2 ≤ c.utf8Size := by
            rw [utf8Size_eq]
            split_ifs <;> omega
          rw [List.length_cons, List.length_cons, hlen (by decide) (by omega)]
          omega
        · have hsize : 4 ≤ c.utf8Size := by
            rw [utf8Size_eq]
            split_ifs <;> omega
          rw [List.length_cons, List.length_cons, hlen (by decide) (by omega)]
          omega

theorem utf8ByteSize_ofList_cons (c : Char) (cs : List Char) :
    (String.ofList (c :: cs)).utf8ByteSize = c.utf8Size + (String.ofList cs).utf8ByteSize := by
  rw [← List.singleton_append, String.ofList_append, String.utf8ByteSize_append,
    ← String.singleton_eq_ofList, String.utf8ByteSize_singleton]

/-- A text is written in no more than four characters an octet, if each character is. -/
theorem length_flatMap_le {f : Char → List Char} (hf : ∀ c, (f c).length ≤ 4 * c.utf8Size)
    (cs : List Char) : (cs.flatMap f).length ≤ 4 * (String.ofList cs).utf8ByteSize := by
  induction cs with
  | nil => exact Nat.zero_le _
  | cons c cs ih =>
    have hc := hf c
    rw [List.flatMap_cons, List.length_append, utf8ByteSize_ofList_cons]
    omega

theorem length_singleChar_le (c : Char) : (singleChar c).length ≤ 4 * c.utf8Size := by
  have hpos := Char.utf8Size_pos c
  rw [singleChar]
  split_ifs <;> simp only [List.length_cons, List.length_nil] <;> omega

/-- A key on one line takes at most four characters for each of its octets. -/
theorem length_scalarText_le (indent : Nat) (key : String) (h : key.toList.any isBreak = false)
    (hstyle : ScalarStyle.of key.toList ≠ .literal) :
    (scalarText indent key.toList).length ≤ 4 * key.utf8ByteSize + 2 := by
  have hsize : key.utf8ByteSize = (String.ofList key.toList).utf8ByteSize := by
    rw [String.ofList_toList]
  rw [hsize, scalarText]
  cases hof : ScalarStyle.of key.toList with
  | literal => exact absurd hof hstyle
  | plain =>
    have hlen := length_flatMap_le (f := fun c => [c])
      (fun c => Nat.le_trans c.utf8Size_pos (Nat.le_mul_of_pos_left _ (by decide))) key.toList
    rw [List.flatMap_singleton'] at hlen
    exact Nat.le_trans hlen (Nat.le_add_right _ _)
  | single =>
    have hlen := length_flatMap_le length_singleChar_le key.toList
    simp only [singleText_line indent h, List.length_append, List.length_cons, List.length_nil]
    omega
  | double =>
    have hlen := length_flatMap_le length_doubleChar_le key.toList
    simp only [doubleText, List.length_append, List.length_cons, List.length_nil]
    omega

end ManifestBundle.Yaml
