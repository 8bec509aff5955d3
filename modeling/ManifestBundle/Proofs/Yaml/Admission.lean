import ManifestBundle.Proofs.Yaml.Cursor
import ManifestBundle.Yaml.Admission

/-!
# Printable characters are taken in

A stream of printable characters is taken in as a whole, and it has none of the line ends
that are read as a newline.
-/

namespace ManifestBundle.Yaml

/-- Every printable character may stand in a text. -/
theorem isAdmitted_of_isPrintable {c : Char} (h : isPrintable c) : isAdmitted c := by
  simp only [isPrintable, isAdmitted, Bool.or_eq_true, Bool.and_eq_true, decide_eq_true_eq] at h ⊢
  omega

theorem takeInFrom_of_admitted (room : Nat) {block cs : List Char} (hblock : block.all isAdmitted)
    (h : cs.all isAdmitted) : takeInFrom room block cs = (block.reverse ++ cs, false) := by
  induction cs generalizing room block with
  | nil => rw [takeInFrom, if_pos hblock, List.append_nil]
  | cons c cs ih =>
    rw [List.all_cons, Bool.and_eq_true] at h
    rw [takeInFrom]
    split
    · rw [ih _ (by rw [List.all_cons, h.1, hblock]; rfl) h.2, List.reverse_cons, List.append_assoc]
      rfl
    · have hnext : [c].all isAdmitted := by rw [List.all_cons, h.1]; rfl
      rw [ih _ hnext h.2]
      rfl

/-- Nothing is cut off from a stream of printable characters. -/
theorem takeIn_of_isPrintable {cs : List Char} (h : cs.all isPrintable) :
    takeIn cs = (cs, false) := by
  refine takeInFrom_of_admitted blockSize rfl (List.all_eq_true.2 fun c hc => ?_)
  exact isAdmitted_of_isPrintable (List.all_eq_true.1 h c hc)

/-- There is nothing to unify in a text of printable characters, which has no carriage returns.
    -/
theorem unifyBreaks_of_isPrintable {cs : List Char} (h : cs.all isPrintable) :
    unifyBreaks cs = cs := by
  induction cs with
  | nil => rfl
  | cons c cs ih =>
    rw [List.all_cons, Bool.and_eq_true] at h
    have hreturn : c ≠ '\r' := by
      rintro rfl
      exact absurd h.1 (by decide)
    have hnextLine : c ≠ '\u0085' := by
      rintro rfl
      exact absurd h.1 (by decide)
    rw [unifyBreaks, ih h.2]
    · simp [hreturn, hnextLine]
    · rintro _ rfl
      exact absurd rfl hreturn

end ManifestBundle.Yaml
