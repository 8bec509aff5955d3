import ManifestBundle.Proofs.Text.Digits
import ManifestBundle.Text.Quoted

/-!
# Texts between double quotes are told apart

Between double quotes a character stands for itself or is escaped, by a mark or by a code
(`Escaping`). Then no character is written as the front of what another one is written as
(`Escaping.Form.append_inj`), and the closing quote is the front of none. So a text ends at the
first quote that is not written for a character, and can be told from any other one
(`Escaping.flatMap_append_inj`). Which marks there are and what a code looks like differs from
one way of quoting to the next; here they are those of the names in messages
(`quoted_append_inj`).
-/

namespace ManifestBundle.Text

/-! ## Escapes -/

/-- How the characters are escaped that do not stand for themselves between quotes: each by a
    mark behind a backslash, or by a code behind a backslash and the letter `u`. -/
structure Escaping where
  /-- The characters that have a mark, with their marks. -/
  marks : List (Char × Char)
  /-- The text is a code of the character. -/
  IsCode : Char → List Char → Prop
  marks_inj : ∀ e ∈ marks, ∀ f ∈ marks, e.2 = f.2 → e.1 = f.1
  /-- No mark is the letter that a code stands behind. -/
  mark_ne : ∀ e ∈ marks, e.2 ≠ 'u'
  /-- A code tells its character, and where it ends. -/
  isCode_append_inj : ∀ {c d : Char} {w v x y : List Char}, IsCode c w → IsCode d v →
    w ++ x = v ++ y → c = d ∧ x = y

namespace Escaping

variable {e : Escaping} {c d : Char} {w v : List Char}

/-- The three ways to write a character: as it is, by its mark, or by its code. -/
inductive Form (e : Escaping) : Char → List Char → Prop
  | plain {c : Char} (notQuote : c ≠ '"') (notBackslash : c ≠ '\\') : Form e c [c]
  | mark {c mark : Char} (mem : (c, mark) ∈ e.marks) : Form e c ['\\', mark]
  | code {c : Char} {w : List Char} (isCode : e.IsCode c w) : Form e c ('\\' :: 'u' :: w)

/-- How a character is written tells it from any other one, whatever follows. -/
theorem Form.append_inj {x y : List Char} (hc : e.Form c w) (hd : e.Form d v)
    (h : w ++ x = v ++ y) : c = d ∧ x = y := by
  cases hc with
  | plain _ hback =>
    cases hd with
    | plain => simpa using h
    | mark => exact absurd (List.cons.inj h).1 hback
    | code => exact absurd (List.cons.inj h).1 hback
  | mark hc =>
    cases hd with
    | plain _ hback => exact absurd (List.cons.inj h).1.symm hback
    | mark hd =>
      obtain ⟨hmark, hrest⟩ := List.cons.inj (List.cons.inj h).2
      exact ⟨e.marks_inj _ hc _ hd hmark, hrest⟩
    | code => exact absurd (List.cons.inj (List.cons.inj h).2).1 (e.mark_ne _ hc)
  | code hc =>
    cases hd with
    | plain _ hback => exact absurd (List.cons.inj h).1.symm hback
    | mark hd => exact absurd (List.cons.inj (List.cons.inj h).2).1.symm (e.mark_ne _ hd)
    | code hd => exact e.isCode_append_inj hc hd (List.cons.inj (List.cons.inj h).2).2

/-- A character is not written like the closing quote. -/
theorem Form.append_ne (h : e.Form c w) (x y : List Char) : w ++ x ≠ '"' :: y := by
  have hback : '\\' ≠ '"' := by decide
  cases h with
  | plain hquote _ => exact fun h => hquote (List.cons.inj h).1
  | mark => exact fun h => hback (List.cons.inj h).1
  | code => exact fun h => hback (List.cons.inj h).1

/-- A text is told from any other one by what is written up to the closing quote. -/
theorem flatMap_append_inj {write : Char → List Char} (hform : ∀ c, e.Form c (write c))
    {s t x y : List Char} (h : s.flatMap write ++ '"' :: x = t.flatMap write ++ '"' :: y) :
    s = t ∧ x = y := by
  induction s generalizing t with
  | nil =>
    cases t with
    | nil => exact ⟨rfl, (List.cons.inj h).2⟩
    | cons d t =>
      rw [List.flatMap_cons, List.append_assoc] at h
      exact absurd h.symm ((hform d).append_ne _ _)
  | cons c s ih =>
    rw [List.flatMap_cons, List.append_assoc] at h
    cases t with
    | nil => exact absurd h ((hform c).append_ne _ _)
    | cons d t =>
      rw [List.flatMap_cons, List.append_assoc] at h
      obtain ⟨rfl, hrest⟩ := (hform c).append_inj (hform d) h
      obtain ⟨rfl, rfl⟩ := ih hrest
      exact ⟨rfl, rfl⟩

end Escaping

/-! ## Quoted names -/

theorem hex_inj {m n : Nat} (h : hex m = hex n) : m = n := by
  have hm := foldlM_hexValue?_hex m
  rw [h, foldlM_hexValue?_hex] at hm
  exact (Option.some.inj hm).symm

/-- A number in hexadecimal ends at the brace behind it. -/
theorem hex_append_inj {m n : Nat} {x y : List Char}
    (h : hex m ++ '\x7d' :: x = hex n ++ '\x7d' :: y) : m = n ∧ x = y := by
  have hdigits (k : Nat) : (hex k).all (· ≠ '\x7d') := by
    rw [List.all_eq_true]
    intro c hc
    obtain ⟨d, hd, rfl⟩ := exists_digit_of_mem_hex hc
    clear hc
    revert d
    decide
  have hend (z : List Char) : ∀ c, ('\x7d' :: z).head? = some c → decide (c ≠ '\x7d') = false := by
    rintro c ⟨⟩
    rfl
  have hm : hex m = hex n := by
    rw [← takeWhile_run (hdigits m) (hend x), h, takeWhile_run (hdigits n) (hend y)]
  rw [hm] at h
  exact ⟨hex_inj hm, (List.cons.inj (List.append_cancel_left h)).2⟩

/-- The escapes of quoted names: a code is a number in hexadecimal between braces. -/
def nameEscaping : Escaping where
  marks := [('\x00', '0'), ('\t', 't'), ('\n', 'n'), ('\r', 'r'), ('"', '"'), ('\\', '\\')]
  IsCode c w := w = '\x7b' :: hex c.toNat ++ ['\x7d']
  marks_inj := by decide
  mark_ne := by decide
  isCode_append_inj := by
    rintro c d _ _ x y rfl rfl h
    obtain ⟨hcode, hrest⟩ : c.toNat = d.toNat ∧ x = y := hex_append_inj (by simpa using h)
    exact ⟨Char.toNat_inj.1 hcode, hrest⟩

theorem form_quotedChar (c : Char) : nameEscaping.Form c (quotedChar c) := by
  unfold quotedChar
  split
  · exact .mark (by decide)
  · exact .mark (by decide)
  · exact .mark (by decide)
  · exact .mark (by decide)
  · exact .mark (by decide)
  · exact .mark (by decide)
  · next hquote hbackslash =>
    have hplain : nameEscaping.Form c [c] := .plain hquote hbackslash
    split
    · exact hplain
    · split
      · exact .code rfl
      · exact hplain

/-- A text between double quotes is told from any other one, whatever follows. -/
theorem quoted_append_inj {s t x y : String} (h : quoted s ++ x = quoted t ++ y) :
    s = t ∧ x = y := by
  have h := congrArg String.toList h
  simp only [quoted, String.toList_append, String.toList_ofList, List.append_assoc,
    List.cons_append, List.nil_append, List.cons.injEq, true_and] at h
  obtain ⟨hs, hx⟩ := Escaping.flatMap_append_inj form_quotedChar h
  exact ⟨String.toList_inj.1 hs, String.toList_inj.1 hx⟩

theorem quoted_inj {s t : String} (h : quoted s = quoted t) : s = t :=
  (quoted_append_inj (congrArg (· ++ "") h)).1

end ManifestBundle.Text
