import ManifestBundle.Proofs.Validation.FailFast

/-!
# What a failing command has written

A command looks for everything that can go wrong before it writes, so a failure leaves
nothing written (`Outcome.IsSilent`). There is one exception: a validation writes the
problems that it has found (`Bundle.problems`) and then fails with their number
(`Outcome.Reports`).

Each stage of a run is shown to keep to this, from the verdict on a bundle
(`Bundle.verdict_of_error`) over the commands on it (`Bundle.validate_of_error`,
`Command.runOn_of_error`) to the whole run (`run_output_of_error`).
-/

namespace ManifestBundle

namespace Outcome

/-- Nothing has been written, and the error is not that problems have been found. -/
structure IsSilent (o : Outcome) : Prop where
  output : o.output = ""
  error_ne (count documents : Nat) : o.error ≠ some (.problems count documents)

/-- The problems of a bundle, of which there are some, have been written one after the
    other, and the error states how many they are. -/
structure Reports (o : Outcome) (b : Bundle) (problems : List String) : Prop where
  pos : 0 < problems.length
  output : o.output = String.join (problems.map fun problem => "error: " ++ problem ++ "\n")
  error : o.error = some (.problems problems.length b.size)

theorem isSilent_failure {e : CommandError} (h : ∀ count documents, e ≠ .problems count documents) :
    (failure e).IsSilent :=
  ⟨rfl, fun count documents he => h count documents (Option.some.inj he)⟩

end Outcome

namespace Bundle

variable (b : Bundle)

theorem get_of_error {s : Selector} {path : Option String} {format : OutputFormat}
    (h : (b.get s path format).error ≠ none) : (b.get s path format).IsSilent := by
  rw [get] at h ⊢
  cases hextract : b.extract s path format with
  | ok text =>
    rw [hextract] at h
    exact absurd rfl h
  | error e => exact Outcome.isSilent_failure fun _ _ => nofun

/-- A verdict is an error if there are problems, and then they have been written. -/
theorem verdict_of_error {problems : List String} (h : (b.verdict problems).error ≠ none) :
    (b.verdict problems).Reports b problems := by
  cases problems with
  | nil => exact absurd rfl h
  | cons problem problems => exact ⟨Nat.succ_pos _, rfl, rfl⟩

/-- A validation that fails has written nothing, or the problems that it has found; if it
    stops at the first violation, then there is none. -/
theorem validate_of_error {c : Config} {collect : Bool} (h : (b.validate c collect).error ≠ none) :
    (b.validate c collect).IsSilent ∨
      ∃ s, c.schema = .ok s ∧ (collect = false → s.violations b = []) ∧
        (b.validate c collect).Reports b (b.problems s collect) := by
  cases hschema : c.schema with
  | error e =>
    rw [validate_of_invalid b c hschema]
    exact .inl (Outcome.isSilent_failure (by rintro _ _ ⟨⟩))
  | ok s =>
    rw [validate, hschema] at h ⊢
    cases collect with
    | true => exact .inr ⟨s, rfl, by rintro ⟨⟩, b.verdict_of_error h⟩
    | false =>
      simp only [Bool.false_eq_true, if_false, s.validateBundle_eq] at h ⊢
      cases hviolations : s.violations b with
      | nil =>
        rw [hviolations] at h
        exact .inr ⟨s, rfl, fun _ => hviolations, b.verdict_of_error h⟩
      | cons e es => exact .inl (Outcome.isSilent_failure (by rintro _ _ ⟨⟩))

end Bundle

namespace Command

/-- Listing and getting write nothing if they fail, and validating nothing but problems. -/
theorem runOn_of_error {b : Bundle} {c : Config} {command : Command}
    (h : (command.runOn b c).error ≠ none) :
    (command.runOn b c).IsSilent ∨
      ∃ collect paths s, command = .validate collect paths ∧ c.schema = .ok s ∧
        ((collect || !c.failFast) = false → s.violations b = []) ∧
        (command.runOn b c).Reports b (b.problems s (collect || !c.failFast)) := by
  cases command with
  | list criteria paths =>
    rw [runOn] at h ⊢
    cases hselector : criteria.selector c.labelMatch with
    | error e => exact .inl (Outcome.isSilent_failure fun _ _ => nofun)
    | ok s =>
      rw [hselector] at h
      exact absurd rfl h
  | get criteria index path output paths =>
    rw [runOn] at h ⊢
    cases hselector : criteria.selector c.labelMatch with
    | error e => exact .inl (Outcome.isSilent_failure fun _ _ => nofun)
    | ok s =>
      rw [hselector] at h
      exact .inl (b.get_of_error h)
  | validate collect paths =>
    refine (b.validate_of_error h).imp_right ?_
    rintro ⟨s, hschema, hviolations, hreports⟩
    exact ⟨collect, paths, s, rfl, hschema, hviolations, hreports⟩

/-- Before the command sees the bundle, nothing is written. -/
theorem run_of_error {files : FileTree} {input : List UInt8} {c : Config} {command : Command}
    (h : (command.run files input c).error ≠ none) :
    (command.run files input c).IsSilent ∨
      ∃ collect paths b s, command = .validate collect paths ∧
        Bundle.load files input c paths = .ok b ∧ c.schema = .ok s ∧
        ((collect || !c.failFast) = false → s.violations b = []) ∧
        (command.run files input c).Reports b (b.problems s (collect || !c.failFast)) := by
  cases hload : Bundle.load files input c command.paths with
  | error cause =>
    have hrun : command.run files input c = .failure (.load cause) := by simp only [run, hload]
    rw [hrun]
    exact .inl (Outcome.isSilent_failure fun _ _ => nofun)
  | ok b =>
    have hrun : command.run files input c = command.runOn b c := by simp only [run, hload]
    rw [hrun] at h ⊢
    refine (runOn_of_error h).imp_right ?_
    rintro ⟨collect, paths, s, rfl, hschema, hviolations, hreports⟩
    exact ⟨collect, paths, b, s, rfl, hload, hschema, hviolations, hreports⟩

end Command

namespace Invocation

/-- An invocation that fails has written nothing, unless it is a validation that has found
    problems in the bundle at its paths. Then the error states their number, which is
    positive, and the number of documents, and one entry has been written for each problem:
    for the violations in the order of the bundle, if they are collected, and then for the
    duplicates. So listing and getting write nothing if they fail. -/
theorem run_output_of_error {files : FileTree} {home : String} {input : List UInt8}
    {i : Invocation} {e : CommandError} (h : (i.run files home input).error = some e) :
    ((i.run files home input).output = "" ∧ ∀ n m, e ≠ .problems n m) ∨
      ∃ collect paths c b s,
        i.command = .validate collect paths ∧ i.settings files home = .ok c ∧
        Bundle.load files input c paths = .ok b ∧ c.schema = .ok s ∧
        ((collect || !c.failFast) = false → s.violations b = []) ∧
        let problems :=
          (if collect || !c.failFast then (s.violations b).map DocumentError.message else []) ++
            b.duplicates.map fun id => "duplicate document " ++ id.text
        let n := problems.length
        let m := b.documents.length
        1 ≤ n ∧ e = .problems n m ∧ e.message = s!"{n} problem(s) found in {m} document(s)" ∧
          (i.run files home input).output =
            String.join (problems.map fun problem => "error: " ++ problem ++ "\n") := by
  cases hsettings : i.settings files home with
  | error cause =>
    have hrun : i.run files home input = .failure (.config cause) := by simp only [run, hsettings]
    rw [hrun] at h ⊢
    obtain rfl := Option.some.inj h
    exact .inl ⟨rfl, fun _ _ => nofun⟩
  | ok c =>
    have hrun : i.run files home input = i.command.run files input c := by
      simp only [run, hsettings]
    rw [hrun] at h ⊢
    rcases Command.run_of_error (h ▸ Option.some_ne_none e) with hsilent | hreports
    · exact .inl ⟨hsilent.output, fun n m he => hsilent.error_ne n m (he ▸ h)⟩
    · obtain ⟨collect, paths, b, s, hcommand, hload, hschema, hviolations, hreports⟩ := hreports
      obtain rfl := Option.some.inj (h.symm.trans hreports.error)
      exact .inr ⟨collect, paths, c, b, s, hcommand, rfl, hload, hschema, hviolations,
        hreports.pos, rfl, rfl, hreports.output⟩

/-- Two documents that share a name and have no kind. -/
def nameTwice : List UInt8 :=
  "metadata: \x7bname: a\x7d\n---\nmetadata: \x7bname: a\x7d".toUTF8.toList

theorem run_output_of_nameTwice :
    let o := run {} "" nameTwice ⟨none, 0, .validate true []⟩
    o.error = some (.problems 3 2) ∧
      ∃ problems : List String, problems.length = 3 ∧
        o.output = String.join (problems.map fun problem => "error: " ++ problem ++ "\n") := by
  intro o
  have h : o.error = some (.problems 3 2) := by decide +kernel
  refine ⟨h, ?_⟩
  rcases run_output_of_error h with ⟨-, hne⟩ | ⟨_, _, _, _, _, -, -, -, -, -, -, herror, -, houtput⟩
  · exact absurd rfl (hne 3 2)
  · exact ⟨_, (CommandError.problems.inj herror).1.symm, houtput⟩

end Invocation

end ManifestBundle
