import ManifestBundle.Command.Run

/-!
# Collecting violations and stopping at the first

The two policies of validation agree: stopping at the first malformed document gives
the first of the violations that collecting gives (`validateBundle_eq`). So a
validation that also looks for duplicates has one verdict under both policies
(`Bundle.validate_error_collect`, `Bundle.validate_succeeds_iff`).
-/

namespace ManifestBundle

namespace Schema

variable (s : Schema)

theorem violations_cons_ok {d : Document} {ds : List Document} (h : s.validate d = .ok ()) :
    s.violations ⟨d :: ds⟩ = s.violations ⟨ds⟩ := by
  simp [violations, h]

theorem violations_cons_error {d : Document} {ds : List Document} {e : DocumentError}
    (h : s.validate d = .error e) : s.violations ⟨d :: ds⟩ = e :: s.violations ⟨ds⟩ := by
  simp [violations, h]

/-- Stopping at the first violation gives the first of all. -/
theorem validateBundle_eq (b : Bundle) :
    s.validateBundle b =
      match s.violations b with
      | [] => .ok ()
      | e :: _ => .error e := by
  obtain ⟨ds⟩ := b
  induction ds with
  | nil => rfl
  | cons d ds ih =>
    have hforM : s.validateBundle ⟨d :: ds⟩ =
        (s.validate d).bind fun _ => s.validateBundle ⟨ds⟩ := List.forM_cons ..
    rw [hforM]
    cases h : s.validate d with
    | ok _ => rw [violations_cons_ok s h, ← ih]; rfl
    | error e => rw [violations_cons_error s h]; rfl

theorem violations_eq_nil_iff (b : Bundle) :
    s.violations b = [] ↔ ∀ d ∈ b.documents, s.validate d = .ok () := by
  rw [violations, List.filterMap_eq_nil_iff]
  refine forall₂_congr fun d _ => ?_
  cases s.validate d <;> simp

/-- The violations of two bundles are those of the bundle of both. -/
theorem violations_merge (b c : Bundle) :
    s.violations (b.merge c) = s.violations b ++ s.violations c :=
  List.filterMap_append

end Schema

namespace Bundle

/-- The problems of a bundle under a schema: the violations if they are collected, and then
    the identities that several documents share. -/
def problems (b : Bundle) (s : Schema) (collect : Bool) : List String :=
  (if collect then (s.violations b).map DocumentError.message else []) ++
    b.duplicates.map duplicateProblem

variable (b : Bundle)

theorem verdict_error (problems : List String) :
    (b.verdict problems).error =
      if problems.length = 0 then none else some (.problems problems.length b.size) := by
  cases problems <;> rfl

variable (c : Config)

theorem validate_of_invalid {e : Config.Problem} (h : c.schema = .error e) (collect : Bool) :
    b.validate c collect = .failure (.settings e) := by
  simp [validate, h]

/-- A collecting validation fails with the number of all problems, if there are any. -/
theorem validate_error_collect {s : Schema} (h : c.schema = .ok s) :
    (b.validate c true).error =
      if (s.violations b).length + b.duplicates.length = 0 then none
      else some (.problems ((s.violations b).length + b.duplicates.length) b.size) := by
  simp only [validate, h, if_true, verdict_error, List.length_append, List.length_map]

/-- A validation that stops at the first violation fails with that, and else with the
    number of duplicates, if there are any. -/
theorem validate_error_failFast {s : Schema} (h : c.schema = .ok s) :
    (b.validate c false).error =
      match s.violations b with
      | e :: _ => some (.document e)
      | [] => if b.duplicates.length = 0 then none
        else some (.problems b.duplicates.length b.size) := by
  simp only [validate, h, Bool.false_eq_true, if_false, Schema.validateBundle_eq]
  cases s.violations b with
  | nil => simp only [verdict_error, List.length_map]
  | cons e es => rfl

/-- A validation succeeds under either policy if the settings describe a schema, every
    document is valid under it, and no two named documents share an identity. -/
theorem validate_succeeds_iff (collect : Bool) :
    (b.validate c collect).error = none ↔
      ∃ s, c.schema = .ok s ∧ (∀ d ∈ b.documents, s.validate d = .ok ()) ∧ b.duplicates = [] := by
  cases h : c.schema with
  | error e => simp [validate_of_invalid b c h, Outcome.failure]
  | ok s =>
    have hvalid := s.violations_eq_nil_iff b
    cases collect with
    | true =>
      rw [validate_error_collect b c h]
      simp [← hvalid]
    | false =>
      rw [validate_error_failFast b c h]
      simp only [Except.ok.injEq, exists_eq_left', ← hvalid]
      cases s.violations b <;> simp

end Bundle

/-! ## Both policies -/

/-- Stopping at the first violation succeeds where there is none, else gives the first
    of those that collecting gives, and collecting goes document by document. So a
    validation of a bundle has one verdict under both policies, and a collecting one
    states in its message how many problems there are. -/
theorem failFast_agrees_with_collect (s : Schema) (c : Config) (b b' : Bundle) :
    ((s.validateBundle b = .ok () ↔ s.violations b = []) ∧
      (∀ e, s.validateBundle b = .error e ↔ (s.violations b).head? = some e) ∧
      s.violations (b.merge b') = s.violations b ++ s.violations b') ∧
    ((b.validate c true).error = none ↔ (b.validate c false).error = none) ∧
    ((b.validate c true).error = none ↔
      ∃ s, c.schema = .ok s ∧ (∀ d ∈ b.documents, s.validate d = .ok ()) ∧ b.duplicates = []) ∧
    match c.schema with
    | .error e => (b.validate c true).error = some (.settings e)
    | .ok s =>
      let n := (s.violations b).length + b.duplicates.length
      (b.validate c true).error.map CommandError.message =
        if 0 < n then some s!"{n} problem(s) found in {b.size} document(s)" else none := by
  refine ⟨⟨?_, ?_, s.violations_merge b b'⟩, ?_, b.validate_succeeds_iff c true, ?_⟩
  · rw [Schema.validateBundle_eq]
    cases s.violations b <;> simp
  · intro e
    rw [Schema.validateBundle_eq]
    cases s.violations b <;> simp
  · rw [Bundle.validate_succeeds_iff, Bundle.validate_succeeds_iff]
  · cases h : c.schema with
    | error e => rw [Bundle.validate_of_invalid b c h]; rfl
    | ok s =>
      -- The message holds the number of problems, which is zero without an error.
      simp only [Bundle.validate_error_collect b c h]
      split
      · next hn => simp [hn]
      · next hn => simp [Nat.pos_of_ne_zero hn, CommandError.message]

end ManifestBundle
