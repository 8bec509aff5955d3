import ManifestBundle.Source
import Mathlib.Data.Nat.Basic

/-!
# Texts and the octets that encode them

Octets decode to the text that they encode, if there is one (`decodeText?_eq_some_iff`). A text
is encoded character by character (`toUTF8_eq`). The first octet of a character is the
character itself if that is in ASCII, and none between `0x80` and `0xc0` in any case
(`utf8EncodeChar_starts`). Characters and their octets are in the same order, and so are texts
(`toUTF8_lt`).
-/

namespace ManifestBundle

theorem toList_loop (os : ByteArray) (i : Nat) (front : List UInt8) :
    ByteArray.toList.loop os i front = front.reverse ++ os.data.toList.drop i := by
  fun_induction ByteArray.toList.loop os i front with
  | case1 i front h ih =>
    have hi : i < os.data.toList.length := by simpa using h
    have hget : os.get! i = os.data.toList[i] := by
      change os.data[i]! = _
      rw [getElem!_pos os.data i (by simpa using hi), Array.getElem_toList]
    rw [ih, List.drop_eq_getElem_cons hi, hget, List.reverse_cons, List.append_assoc]
    rfl
  | case2 i front h =>
    rw [List.drop_of_length_le (by simpa using h), List.append_nil]

theorem toList_eq (os : ByteArray) : os.toList = os.data.toList := by
  rw [ByteArray.toList, toList_loop]
  rfl

/-- Octets are decoded to the text that they encode, and to none if there is none. -/
theorem decodeText?_eq_some_iff {os : List UInt8} {text : String} :
    decodeText? os = some text ↔ os = text.toUTF8.toList := by
  rw [toList_eq, decodeText?, String.fromUTF8?, Option.dite_none_right_eq_some]
  constructor
  · rintro ⟨hvalid, h⟩
    cases h
    rfl
  · rintro rfl
    exact ⟨text.isValidUTF8, rfl⟩

/-! ## Characters -/

/-- A text is encoded character by character. -/
theorem toUTF8_eq (s : String) : s.toUTF8.toList = s.toList.flatMap String.utf8EncodeChar := by
  have hbytes : s.toByteArray = s.toList.utf8Encode := by
    rw [← String.toByteArray_ofList, String.ofList_toList]
  rw [toList_eq, String.toUTF8_eq_toByteArray, hbytes, List.utf8Encode,
    List.toList_data_toByteArray]

theorem toNat_lt_of_char (c : Char) : c.val.toNat < 0x110000 := by
  rcases c.valid with h | h
  · exact Nat.lt_trans h (by decide)
  · exact h.2

/-- An octet between `0x80` and `0xc0` starts no character, and one below is a character. -/
theorem utf8EncodeChar_starts (c : Char) :
    ∃ o os, String.utf8EncodeChar c = o :: os ∧
      (o.toNat = c.val.toNat ∧ c.val.toNat < 0x80 ∧ os = [] ∨ 0xc0 ≤ o.toNat) := by
  have hc := toNat_lt_of_char c
  simp only [String.utf8EncodeChar]
  generalize c.val.toNat = n at hc
  split_ifs
  · exact ⟨_, _, rfl, .inl ⟨by rw [UInt8.toNat_ofNat']; omega, by omega, rfl⟩⟩
  all_goals exact ⟨_, _, rfl, .inr (by rw [UInt8.toNat_ofNat']; omega)⟩

/-- Numbers in the base of 64 are compared from their first digits on. -/
theorem digits_lt {m n : Nat} (h : m < n) :
    m / 64 / 64 / 64 < n / 64 / 64 / 64 ∨ m / 64 / 64 / 64 = n / 64 / 64 / 64 ∧
      (m / 64 / 64 % 64 < n / 64 / 64 % 64 ∨ m / 64 / 64 % 64 = n / 64 / 64 % 64 ∧
        (m / 64 % 64 < n / 64 % 64 ∨ m / 64 % 64 = n / 64 % 64 ∧ m % 64 < n % 64)) := by
  have hlast {m n : Nat} (h : m < n) : m / 64 < n / 64 ∨ m / 64 = n / 64 ∧ m % 64 < n % 64 := by
    omega
  rcases hlast h with h | ⟨h, h'⟩
  · rcases hlast h with h | ⟨h, h'⟩
    · rcases hlast h with h | ⟨h, h'⟩
      · exact .inl h
      · exact .inr ⟨h, .inl h'⟩
    · exact .inr ⟨by rw [h], .inr ⟨by rw [h], .inl h'⟩⟩
  · exact .inr ⟨by rw [h], .inr ⟨by rw [h], .inr ⟨by rw [h], h'⟩⟩⟩

/-- The octets of a character are before those of a later one, whatever follows them. -/
theorem utf8EncodeChar_lt {c d : Char} (h : c < d) (os os' : List UInt8) :
    String.utf8EncodeChar c ++ os < String.utf8EncodeChar d ++ os' := by
  have hc := toNat_lt_of_char c
  have hd := toNat_lt_of_char d
  have hlt : c.val.toNat < d.val.toNat := h
  have h4096 (k : Nat) : k / 4096 = k / 64 / 64 := by omega
  have h262144 (k : Nat) : k / 262144 = k / 64 / 64 / 64 := by omega
  simp only [String.utf8EncodeChar, h4096, h262144]
  generalize c.val.toNat = m at hc hlt
  generalize d.val.toNat = n at hd hlt
  have hdigits := digits_lt hlt
  -- Characters of different lengths differ in the first octet, others in the first digit.
  split_ifs <;>
    simp only [List.cons_append, List.nil_append, List.cons_lt_cons_iff, UInt8.lt_iff_toNat_lt,
      ← UInt8.toNat_inj, UInt8.toNat_ofNat'] <;>
    simp (disch := omega) only [Nat.mod_eq_of_lt] <;>
    omega

/-- Texts are ordered as the octets that encode them. -/
theorem toUTF8_lt {s t : String} (h : s < t) : s.toUTF8.toList < t.toUTF8.toList := by
  rw [String.lt_iff] at h
  rw [toUTF8_eq, toUTF8_eq]
  generalize s.toList = cs at h
  generalize t.toList = ds at h
  induction cs generalizing ds with
  | nil =>
    cases ds with
    | nil => exact absurd h (List.lt_irrefl _)
    | cons d ds =>
      obtain ⟨o, os, hd, -⟩ := utf8EncodeChar_starts d
      rw [List.flatMap_cons, hd]
      exact List.nil_lt_cons _ _
  | cons c cs ih =>
    cases ds with
    | nil => nomatch h
    | cons d ds =>
      rw [List.flatMap_cons, List.flatMap_cons]
      rcases List.cons_lt_cons_iff.1 h with hfirst | ⟨rfl, hrest⟩
      · exact utf8EncodeChar_lt hfirst _ _
      · exact List.append_left_lt (ih ds hrest)

end ManifestBundle
