import ManifestBundle.Command.Run
import ManifestBundle.Proofs.Bundle.Selection
import ManifestBundle.Proofs.Equality
import ManifestBundle.Proofs.Except

/-!
# Listing documents and getting one of them

Listing and getting look at the same documents, those that the criteria select in the
bundle that the paths hold. So what is listed tells what getting gives
(`run_get_agrees_with_list`): the document at a position, if so many are listed, or
the only one that is listed.
-/

namespace ManifestBundle

namespace Bundle

variable (b : Bundle) (s : Selector) (format : OutputFormat)

/-- What is selected is written. -/
theorem get_of_select_ok {d : Document} (h : b.select s = .ok d) :
    b.get s none format = { output := Document.renderAll [d] format } := by
  rw [get, extract, h]
  rfl

/-- What cannot be selected fails the command. -/
theorem get_of_select_error {e : DocumentError} (h : b.select s = .error e) :
    b.get s none format = .failure (.document e) := by
  rw [get, extract, h]
  rfl

/-- Getting a document fails exactly where selecting it does, for the same cause. -/
theorem get_eq_failure_iff {e : DocumentError} :
    b.get s none format = .failure (.document e) ↔ b.select s = .error e := by
  cases h : b.select s with
  | ok d => simp [get_of_select_ok b s format h, Outcome.failure]
  | error e' => simp [get_of_select_error b s format h, Outcome.failure]

/-- Getting succeeds exactly if a document is selected. -/
theorem get_succeeds_iff : (b.get s none format).error = none ↔ ∃ d, b.select s = .ok d := by
  cases h : b.select s with
  | ok d => simp [get_of_select_ok b s format h]
  | error e => simp [get_of_select_error b s format h, Outcome.failure]

theorem select_of_index {index : Nat} (h : s.index = some index) :
    b.select s = b.selectAt s index := by
  rw [select, h]

theorem select_of_index_none (h : s.index = none) : b.select s = b.selectOne s := by
  rw [select, h]

end Bundle

/-- The criteria on documents ask for no position. -/
theorem Criteria.index_selector {c : Criteria} {mode : LabelMatch} {s : Selector}
    (h : c.selector mode = .ok s) : s.index = none := by
  obtain ⟨labels, -, h⟩ := Except.bind_eq_ok_iff.1 h
  obtain ⟨annotations, -, h⟩ := Except.bind_eq_ok_iff.1 h
  rw [← Except.ok.inj h]

namespace Command

variable {files : FileTree} {input : List UInt8} {c : Config} {criteria : Criteria}
  {paths : List String} {b : Bundle} {s : Selector}

/-- Listing writes a line for each document that is selected. -/
theorem run_list (hb : Bundle.load files input c paths = .ok b)
    (hs : criteria.selector c.labelMatch = .ok s) :
    run files input c (.list criteria paths) =
      { output := String.join ((b.filter s).map Document.listLine) } := by
  simp [run, Command.paths, hb, runOn, hs, Bundle.list]

/-- Getting looks for the one document, or for that at the position, among those of the bundle.
    -/
theorem run_get (hb : Bundle.load files input c paths = .ok b)
    (hs : criteria.selector c.labelMatch = .ok s) (index : Option Nat) (path : Option String)
    (output : Option OutputFormat) :
    run files input c (.get criteria index path output paths) =
      b.get { s with index } path (output.getD c.output) := by
  simp [run, Command.paths, hb, runOn, hs]

/-- With `M` the documents that are listed, getting the one at a position gives it if the
    position is in `M` and says otherwise how many there are, and getting the only one
    gives it if it is, and says otherwise that there is none or how many there are. -/
theorem run_get_agrees_with_list (hb : Bundle.load files input c paths = .ok b)
    (hs : criteria.selector c.labelMatch = .ok s) (output : Option OutputFormat) :
    let M := b.filter s
    let listed := run files input c (.list criteria paths)
    let got (index : Option Nat) := run files input c (.get criteria index none output paths)
    let written (d : Document) : Outcome :=
      { output := Document.renderAll [d] (output.getD c.output) }
    listed = { output := String.join (M.map Document.listLine) } ∧
    (∀ i, ((got (some i)).error = none ↔ i < M.length) ∧
      (∀ d, M[i]? = some d → got (some i) = written d) ∧
      (got (some i) = .failure (.document (.outOfRange { s with index := some i } i M.length)) ↔
        M.length ≤ i)) ∧
    ((got none).error = none ↔ M.length = 1) ∧
    (∀ d, M = [d] → got none = written d) ∧
    (got none = .failure (.document (.notFound s)) ↔ M.length = 0) ∧
    (got none = .failure (.document (.notUnique s M.length)) ↔ 2 ≤ M.length) := by
  intro M listed got written
  -- What the selector with a position, and the one without, select in the bundle.
  have hat (i : Nat) :
      b.select { s with index := some i } = b.selectAt { s with index := some i } i :=
    b.select_of_index _ rfl
  have hone : b.select { s with index := none } = b.selectOne s := by
    have hnone : { s with index := none } = s := by rw [← Criteria.index_selector hs]
    rw [hnone, b.select_of_index_none s (Criteria.index_selector hs)]
  have hgot (index : Option Nat) : got index = _ := run_get hb hs index none output
  refine ⟨run_list hb hs, fun i => ⟨?_, ?_, ?_⟩, ?_, ?_, ?_, ?_⟩
  · -- The position does not change what the filter takes.
    rw [hgot, Bundle.get_succeeds_iff, hat]
    simp only [Bundle.selectAt_eq_ok_iff, Bundle.filter_withIndex]
    rw [← Option.isSome_iff_exists, isSome_getElem?]
  · intro d hd
    rw [hgot]
    refine Bundle.get_of_select_ok _ _ _ ?_
    rwa [hat, Bundle.selectAt_eq_ok_iff]
  · rw [hgot, Bundle.get_eq_failure_iff, hat]
    exact b.selectAt_eq_outOfRange_iff { s with index := some i }
  · rw [hgot, Bundle.get_succeeds_iff, hone]
    simp only [Bundle.selectOne_eq_ok_iff]
    exact List.length_eq_one_iff.symm
  · intro d hd
    rw [hgot]
    refine Bundle.get_of_select_ok _ _ _ ?_
    rwa [hone, Bundle.selectOne_eq_ok_iff]
  · rw [hgot, Bundle.get_eq_failure_iff, hone]
    exact b.selectOne_eq_notFound_iff s
  · rw [hgot, Bundle.get_eq_failure_iff, hone]
    exact b.selectOne_eq_notUnique_iff s

/-- A document of nothing but a name. -/
def named (name : String) : Document where
  group := ""
  version := ""
  kind := ""
  name := name
  data := .map [("metadata", .map [("name", .text name)])]

/-- A stream of two documents. -/
def twoNamed : List UInt8 :=
  "metadata: \x7bname: a\x7d\n---\nmetadata: \x7bname: b\x7d".toUTF8.toList

/-- Of two documents the first one is got, a third one is not there, and without a position they
    are too many. -/
theorem run_get_of_two :
    Bundle.load {} twoNamed {} [] = .ok ⟨[named "a", named "b"]⟩ ∧
      Criteria.selector {} .subset = .ok {} ∧
      (run {} twoNamed {} (.get {} (some 1) none none [])).error = none ∧
      run {} twoNamed {} (.get {} (some 2) none none []) =
        .failure (.document (.outOfRange { index := some 2 } 2 2)) ∧
      run {} twoNamed {} (.get {} none none none []) =
        .failure (.document (.notUnique {} 2)) := by
  have hb : Bundle.load {} twoNamed {} [] = .ok ⟨[named "a", named "b"]⟩ := by
    decide +kernel
  have hs : Criteria.selector {} .subset = .ok {} := rfl
  have h := run_get_agrees_with_list hb hs none
  exact ⟨hb, hs, (h.2.1 1).1.2 (by decide), (h.2.1 2).2.2.2 (by decide), h.2.2.2.2.2.2 (by decide)⟩

end Command

end ManifestBundle
