import ManifestBundle.DocumentError
import ManifestBundle.Proofs.KeyPath.RoundTrip
import ManifestBundle.Proofs.Text.Quoted

/-!
# The text of a key path tells which path it is

Two paths with the same text are the same path. Where the text is read back this is clear;
the one exception, a lone key of blanks, is told from the root by its text, which is not
empty. So an error that names a path by its text names that path only.
-/

namespace ManifestBundle.KeyPath

/-- A lone key of blanks is written as it is. -/
theorem exists_of_isLoneBlank {p : KeyPath} (h : p.isLoneBlank) :
    ∃ k, p = ⟨[.key k]⟩ ∧ k ≠ "" ∧ p.text = k := by
  obtain ⟨ss⟩ := p
  unfold isLoneBlank at h
  split at h
  · next k hk =>
    obtain rfl : ss = [.key k] := hk
    obtain ⟨hne, hblank⟩ : k ≠ "" ∧ Text.allBlank k.toList := by simpa using h
    have hplain : needsQuotes k.toList = false := by
      by_contra hquotes
      rw [Bool.not_eq_false] at hquotes
      have hfull := allBlank_of_needsQuotes hquotes (by simpa using hne)
      rw [hblank] at hfull
      cases hfull
    refine ⟨k, rfl, hne, ?_⟩
    simp [text, chars, segmentChars, hplain]
  · cases h

/-- Paths with the same text are the same. -/
theorem eq_of_text_eq {p q : KeyPath} (h : p.text = q.text) : p = q := by
  have hread : (if p.isLoneBlank then root else p) = if q.isLoneBlank then root else q := by
    have hp := parse_text_eq p
    rw [h, parse_text_eq] at hp
    exact (Except.ok.inj hp).symm
  cases hp : p.isLoneBlank with
  | true =>
    obtain ⟨k, rfl, hk, hpk⟩ := exists_of_isLoneBlank hp
    cases hq : q.isLoneBlank with
    | true =>
      obtain ⟨l, rfl, -, hql⟩ := exists_of_isLoneBlank hq
      rw [hpk, hql] at h
      rw [h]
    | false =>
      obtain rfl : root = q := by simpa [hp, hq] using hread
      exact absurd (hpk.symm.trans h) hk
  | false =>
    cases hq : q.isLoneBlank with
    | true =>
      obtain ⟨l, rfl, hl, hql⟩ := exists_of_isLoneBlank hq
      obtain rfl : p = root := by simpa [hp, hq] using hread
      exact absurd (hql.symm.trans h.symm) hl
    | false => simpa [hp, hq] using hread

theorem message_keyNotFound (d : String) (p : KeyPath) :
    (DocumentError.keyNotFound d p).message =
      "document " ++ (Text.quoted d ++ (" cannot retrieve data key " ++ Text.quoted p.text)) := by
  unfold DocumentError.message
  simp only [toString, String.append_assoc]

theorem message_missingKey (d kind : String) (p : KeyPath) :
    (DocumentError.malformed d (.missingKey kind p)).message =
      "document " ++ (Text.quoted d ++
        (" is malformed: " ++ Text.quoted (kind ++ (" requires data key " ++ p.text)))) := by
  unfold DocumentError.message Defect.message
  simp only [toString, String.append_assoc]

/-- The text of a path tells which path it is, and so do the error of a look-up, which names
    the document and the path, and the defect of a document of some kind that lacks a value
    at a required path. -/
theorem text_eq_text_iff (p q : KeyPath) :
    (p.text = q.text ↔ p = q) ∧
      (∀ d e, (DocumentError.keyNotFound d p).message = (DocumentError.keyNotFound e q).message ↔
        d = e ∧ p = q) ∧
      ∀ d e kind, (DocumentError.malformed d (.missingKey kind p)).message =
        (DocumentError.malformed e (.missingKey kind q)).message ↔ d = e ∧ p = q := by
  refine ⟨⟨eq_of_text_eq, congrArg text⟩, fun d e => ⟨fun h => ?_, ?_⟩,
    fun d e kind => ⟨fun h => ?_, ?_⟩⟩
  · rw [message_keyNotFound, message_keyNotFound, String.append_right_inj] at h
    obtain ⟨hname, h⟩ := Text.quoted_append_inj h
    rw [String.append_right_inj] at h
    exact ⟨hname, eq_of_text_eq (Text.quoted_inj h)⟩
  · rintro ⟨rfl, rfl⟩
    rfl
  · rw [message_missingKey, message_missingKey, String.append_right_inj] at h
    obtain ⟨hname, h⟩ := Text.quoted_append_inj h
    rw [String.append_right_inj] at h
    have h := Text.quoted_inj h
    rw [String.append_right_inj, String.append_right_inj] at h
    exact ⟨hname, eq_of_text_eq h⟩
  · rintro ⟨rfl, rfl⟩
    rfl

end ManifestBundle.KeyPath
