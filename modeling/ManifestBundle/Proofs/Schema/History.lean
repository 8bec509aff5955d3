import ManifestBundle.Proofs.Lists
import ManifestBundle.Proofs.Text.Split
import ManifestBundle.Schema
import Mathlib.Data.List.TakeWhile

/-!
# Schemas and their history

A schema comes about by calls that register rules with it, in code or in text. A call with
rules in text may fail, and then has registered the rules before the text at fault
(`requireAll_eq_ok_iff`, `requireAll_eq_error_iff`).

The paths in the entry of a target are, at any time, the distinct ones among all that have
been registered for it, in the order in which they first were: registering one more rule
keeps this (`HasHistory.add`), hence so does any number of calls (`HasHistory.callAll`). So
the paths that a schema requires of a document can be told from its history alone
(`requiredPaths_callAll`).
-/

namespace ManifestBundle.Schema

/-! ## Targets in text -/

/-- A target without a group is a text without a slash. -/
theorem Target.ofText_eq_any_iff {text kind : String} :
    Target.ofText text = ⟨none, kind⟩ ↔ text = kind ∧ '/' ∉ kind.toList := by
  rw [ofText]
  split
  · next group kind' h =>
    refine iff_of_false (fun h => nomatch h) ?_
    rintro ⟨rfl, hkind⟩
    rw [Text.cutLast?_eq_none_iff.2 hkind] at h
    nomatch h
  · next h =>
    rw [Target.mk.injEq, eq_self_iff_true, true_and]
    refine (and_iff_left_of_imp ?_).symm
    rintro rfl
    exact Text.cutLast?_eq_none_iff.1 h

/-- A target with a group is parted at its last slash. -/
theorem Target.ofText_eq_group_iff {text group kind : String} :
    Target.ofText text = ⟨some group, kind⟩ ↔
      text = group ++ "/" ++ kind ∧ '/' ∉ kind.toList := by
  have htext : text = group ++ "/" ++ kind ↔
      text.toList = group.toList ++ '/' :: kind.toList := by
    rw [← String.toList_inj]
    simp
  rw [htext, ← Text.cutLast?_eq_some_iff, ofText]
  split
  · next group' kind' h =>
    rw [h]
    simp [← String.toList_inj]
  · next h => simp [h]

/-! ## Registering rules -/

/-- The schema with rules added one by one. -/
def register (s : Schema) (rules : List Rule) : Schema :=
  rules.foldl add s

/-- One more rule adds its path to the entry of its target, and leaves other entries alone. -/
theorem lookup_insert (rule : Rule) (target : Target) (table : List (Target × List KeyPath)) :
    (insert rule table).lookup target =
      if target = rule.target then
        let paths := (table.lookup target).getD []
        some (if rule.path ∈ paths then paths else paths ++ [rule.path])
      else table.lookup target := by
  induction table with
  | nil => simp [insert, List.lookup_cons_eq_ite]
  | cons entry table ih =>
    rw [insert]
    by_cases ht : entry.1 = rule.target
    · rw [if_pos ht, List.lookup_cons_eq_ite, List.lookup_cons_eq_ite, ht]
      by_cases h : target = rule.target <;> simp [h]
    · rw [if_neg ht, List.lookup_cons_eq_ite, List.lookup_cons_eq_ite, ih]
      by_cases h : target = entry.1 <;> simp [h, ht]

/-- The paths that have been registered for a target, as often as they have been. -/
def pathsIn (history : List Rule) (target : Target) : List KeyPath :=
  (history.filter (·.target = target)).map Rule.path

/-- One more rule adds its path to those of its target. -/
theorem pathsIn_concat (history : List Rule) (rule : Rule) (target : Target) :
    pathsIn (history ++ [rule]) target =
      if target = rule.target then pathsIn history target ++ [rule.path]
      else pathsIn history target := by
  by_cases h : target = rule.target <;> simp [pathsIn, h, eq_comm]

/-- The schema is what is left of its history when only first occurrences count. -/
structure HasHistory (s : Schema) (history : List Rule) : Prop where
  pathsOf_eq (target : Target) : s.pathsOf target = (pathsIn history target).eraseDups
  isEmpty_iff : s.isEmpty ↔ history = []

/-- Adding a rule adds it to the history. -/
theorem HasHistory.add {s : Schema} {history : List Rule} (h : s.HasHistory history)
    (rule : Rule) : (s.add rule).HasHistory (history ++ [rule]) where
  pathsOf_eq target := by
    have hpaths : (s.table.lookup target).getD [] = _ := h.pathsOf_eq target
    rw [Schema.pathsOf, Schema.add, lookup_insert, pathsIn_concat]
    split
    · simp [hpaths, List.eraseDups_concat]
    · exact hpaths
  isEmpty_iff := by
    refine iff_of_false ?_ (by simp)
    rw [isEmpty, Schema.add]
    cases s.table with
    | nil => simp [insert]
    | cons entry table =>
      rw [insert]
      split <;> simp

/-- Registering rules adds them to the history, in their order. -/
theorem HasHistory.register {s : Schema} {history : List Rule} (h : s.HasHistory history)
    (rules : List Rule) : (s.register rules).HasHistory (history ++ rules) := by
  induction rules generalizing s history with
  | nil => rwa [List.append_nil]
  | cons rule rules ih =>
    rw [List.append_cons]
    exact ih (h.add rule)

/-! ## Rules in text -/

/-- The texts listed for targets, one by one. -/
def listed (rules : List (String × List String)) : List (Target × String) :=
  rules.flatMap fun (target, texts) => texts.map (Target.ofText target, ·)

/-- A listed text is a path. -/
def isPath (entry : Target × String) : Bool :=
  (KeyPath.parse entry.2).isOk

/-- The rule that a listed text spells, if it is a path. -/
def rule? (entry : Target × String) : Option Rule :=
  (KeyPath.parse entry.2).toOption.map (⟨entry.1, ·⟩)

/-- Registers the rules of listed texts up to the first that is not a path. -/
def requireListed (s : Schema) : List (Target × String) → Schema × Except DocumentError Unit
  | [] => (s, .ok ())
  | (target, text) :: rest =>
    match KeyPath.parse text with
    | .ok path => (s.add ⟨target, path⟩).requireListed rest
    | .error cause => (s, .error (.invalidPath text cause))

/-- Entries are registered up to the first faulty one, so more of them count only without one.
    -/
theorem requireListed_append (s : Schema) (entries more : List (Target × String)) :
    s.requireListed (entries ++ more) =
      if (s.requireListed entries).2.isOk then (s.requireListed entries).1.requireListed more
      else s.requireListed entries := by
  induction entries generalizing s with
  | nil => rfl
  | cons entry entries ih =>
    rw [List.cons_append, requireListed, requireListed]
    cases KeyPath.parse entry.2 with
    | ok path => exact ih _
    | error cause => rfl

theorem requireTexts_eq (s : Schema) (target : Target) (texts : List String) :
    s.requireTexts target texts = s.requireListed (texts.map (target, ·)) := by
  induction texts generalizing s with
  | nil => rfl
  | cons text texts ih =>
    rw [List.map_cons, requireTexts, requireListed]
    cases KeyPath.parse text with
    | ok path => exact ih _
    | error cause => rfl

/-- The two loops, over targets and over the texts of each, are one over all texts. -/
theorem requireAll_eq (s : Schema) (rules : List (String × List String)) :
    s.requireAll rules = s.requireListed (listed rules) := by
  induction rules generalizing s with
  | nil => rfl
  | cons rule rules ih =>
    have hlisted : listed (rule :: rules) =
        rule.2.map (Target.ofText rule.1, ·) ++ listed rules := List.flatMap_cons
    rw [hlisted, requireListed_append, requireAll, requireTexts_eq]
    cases s.requireListed (rule.2.map (Target.ofText rule.1, ·)) with
    | mk s' result =>
      cases result with
      | ok => exact ih s'
      | error e => rfl

/-- Texts that are paths are all registered, whatever is listed behind them. -/
theorem requireListed_of_isPath (s : Schema) {entries : List (Target × String)}
    (h : ∀ entry ∈ entries, isPath entry) (more : List (Target × String)) :
    s.requireListed (entries ++ more) =
      (s.register (entries.filterMap rule?)).requireListed more := by
  induction entries generalizing s with
  | nil => rfl
  | cons entry entries ih =>
    obtain ⟨hentry, hentries⟩ := List.forall_mem_cons.1 h
    rw [List.cons_append, requireListed]
    cases hpath : KeyPath.parse entry.2 with
    | ok path =>
      have hrule : rule? entry = some ⟨entry.1, path⟩ := by
        rw [rule?, hpath]
        rfl
      rw [List.filterMap_cons_some hrule]
      exact ih _ hentries
    | error cause =>
      rw [isPath, hpath] at hentry
      nomatch hentry

/-- `before` are the listed texts in front of the first that is not a path. -/
def FirstFault (entries before : List (Target × String)) (text : String)
    (cause : KeyPath.SyntaxError) : Prop :=
  ∃ target after, entries = before ++ (target, text) :: after ∧
    (∀ entry ∈ before, isPath entry) ∧ KeyPath.parse text = .error cause

/-- What stands in front of the first fault has been registered, and the fault is told. -/
theorem requireListed_of_firstFault (s : Schema) {entries before : List (Target × String)}
    {text : String} {cause : KeyPath.SyntaxError} (h : FirstFault entries before text cause) :
    s.requireListed entries =
      (s.register (before.filterMap rule?), .error (.invalidPath text cause)) := by
  obtain ⟨target, after, rfl, hbefore, htext⟩ := h
  rw [requireListed_of_isPath s hbefore, requireListed, htext]

theorem exists_firstFault {entries : List (Target × String)}
    (h : ¬ ∀ entry ∈ entries, isPath entry) :
    ∃ before text cause, FirstFault entries before text cause := by
  cases hfind : entries.find? (!isPath ·) with
  | none => exact absurd (by simpa using List.find?_eq_none.1 hfind) h
  | some entry =>
    obtain ⟨hentry, before, after, hentries, hbefore⟩ := List.find?_eq_some_iff_append.1 hfind
    cases hpath : KeyPath.parse entry.2 with
    | ok path => simp [isPath, hpath, Except.isOk, Except.toBool] at hentry
    | error cause =>
      exact ⟨before, entry.2, cause, entry.1, after, hentries, by simpa using hbefore, hpath⟩

variable {s s' : Schema} {rules : List (String × List String)}

/-- Rules in text are registered without an error if all texts are paths. -/
theorem requireAll_eq_ok_iff :
    s.requireAll rules = (s', .ok ()) ↔
      (∀ entry ∈ listed rules, isPath entry) ∧
        s' = s.register ((listed rules).filterMap rule?) := by
  rw [requireAll_eq]
  by_cases h : ∀ entry ∈ listed rules, isPath entry
  · have hall := requireListed_of_isPath s h []
    rw [List.append_nil] at hall
    rw [hall, requireListed, Prod.mk.injEq, eq_comm, and_comm]
    exact and_congr_left' (by simpa using h)
  · obtain ⟨before, text, cause, hfault⟩ := exists_firstFault h
    rw [requireListed_of_firstFault s hfault]
    exact iff_of_false (fun h => nomatch (Prod.mk.inj h).2) fun h' => h h'.1

/-- Rules in text fail at the first text that is not a path, and those before it have been
    registered then. -/
theorem requireAll_eq_error_iff {e : DocumentError} :
    s.requireAll rules = (s', .error e) ↔
      ∃ before text cause, FirstFault (listed rules) before text cause ∧
        s' = s.register (before.filterMap rule?) ∧ e = .invalidPath text cause := by
  rw [requireAll_eq]
  constructor
  · intro heq
    by_cases h : ∀ entry ∈ listed rules, isPath entry
    · have hall := requireListed_of_isPath s h []
      rw [List.append_nil, heq] at hall
      nomatch (Prod.mk.inj hall).2
    · obtain ⟨before, text, cause, hfault⟩ := exists_firstFault h
      rw [requireListed_of_firstFault s hfault, Prod.mk.injEq] at heq
      exact ⟨before, text, cause, hfault, heq.1.symm, (Except.error.inj heq.2).symm⟩
  · rintro ⟨before, text, cause, hfault, rfl, rfl⟩
    exact requireListed_of_firstFault s hfault

/-! ## Calls -/

/-- A call that registers rules. -/
inductive Call where
  | require (kind : String) (path : KeyPath)
  | requireInGroup (group kind : String) (path : KeyPath)
  /-- The paths are in text, and listed for targets in text. -/
  | requireAll (rules : List (String × List String))

/-- The schema after a call, whether it has failed or not. -/
def call (s : Schema) : Call → Schema
  | .require kind path => s.require kind path
  | .requireInGroup group kind path => s.requireInGroup group kind path
  | .requireAll rules => (s.requireAll rules).1

/-- The schema after calls, one after the other. -/
def callAll (s : Schema) (calls : List Call) : Schema :=
  calls.foldl call s

/-- The rules that a call registers. -/
def Call.registered : Call → List Rule
  | require kind path => [⟨⟨none, kind⟩, path⟩]
  | requireInGroup group kind path => [⟨⟨some group, kind⟩, path⟩]
  | requireAll rules => ((listed rules).takeWhile isPath).filterMap rule?

theorem call_eq (s : Schema) (c : Call) : s.call c = s.register c.registered := by
  cases c with
  | require kind path => rfl
  | requireInGroup group kind path => rfl
  | requireAll rules =>
    by_cases h : ∀ entry ∈ listed rules, isPath entry
    · have hall : s.requireAll rules = _ := requireAll_eq_ok_iff.2 ⟨h, rfl⟩
      rw [call, hall, Call.registered, List.takeWhile_eq_self_iff.2 h]
    · obtain ⟨before, text, cause, hfault⟩ := exists_firstFault h
      have hfailed : s.requireAll rules = _ :=
        requireAll_eq_error_iff.2 ⟨before, text, cause, hfault, rfl, rfl⟩
      obtain ⟨target, after, hlisted, hbefore, htext⟩ := hfault
      have hnot : ¬ isPath (target, text) := by simp [isPath, htext, Except.isOk, Except.toBool]
      rw [call, hfailed, Call.registered, hlisted, List.takeWhile_append_of_pos hbefore,
        List.takeWhile_cons_of_neg hnot, List.append_nil]

/-- After any calls the history is what has been registered, in the order of the calls. -/
theorem HasHistory.callAll {history : List Rule} (h : s.HasHistory history) (calls : List Call) :
    (s.callAll calls).HasHistory (history ++ calls.flatMap Call.registered) := by
  induction calls generalizing s history with
  | nil => rwa [List.flatMap_nil, List.append_nil]
  | cons c calls ih =>
    rw [List.flatMap_cons, ← List.append_assoc]
    refine ih ?_
    rw [call_eq]
    exact h.register _

/-! ## Schemas with a history -/

/-- The rules of the built-in schema. -/
def builtinRules : List Rule :=
  workloadKinds.map fun kind => ⟨⟨none, kind⟩, ⟨[.key "spec"]⟩⟩

/-- The schema to start with. -/
def start (fromBuiltin : Bool) : Schema :=
  if fromBuiltin then builtin else empty

/-- All rules that have been registered by the start and by calls, in order. -/
def history (fromBuiltin : Bool) (calls : List Call) : List Rule :=
  (if fromBuiltin then builtinRules else []) ++ calls.flatMap Call.registered

/-- A schema starts with the rules that are built in, or with none. -/
theorem hasHistory_start (fromBuiltin : Bool) :
    (start fromBuiltin).HasHistory (if fromBuiltin then builtinRules else []) := by
  have hempty : empty.HasHistory [] := ⟨fun _ => rfl, iff_of_true rfl rfl⟩
  cases fromBuiltin with
  | false => exact hempty
  | true =>
    have hbuiltin : builtin = empty.register builtinRules := List.foldl_map.symm
    have := hempty.register builtinRules
    rwa [← hbuiltin] at this

/-- Whatever calls have been made, failing ones among them, a schema requires of a document
    the distinct paths registered for its kind in any group, in the order in which they
    first were, and then those for its kind in its group; and it is empty if none has been
    registered. A target in text has no group if there is no slash in it, and is cut at the
    last slash else. Rules in text are all registered if all texts are paths; otherwise those
    before the first text that is none are, and that text is reported. -/
theorem requiredPaths_callAll (fromBuiltin : Bool) (calls : List Call) :
    let s := (start fromBuiltin).callAll calls
    let registered := pathsIn (history fromBuiltin calls)
    (∀ d : Document, s.requiredPaths d =
      (registered ⟨none, d.kind⟩).eraseDups ++ (registered ⟨some d.group, d.kind⟩).eraseDups) ∧
    (s.isEmpty ↔ history fromBuiltin calls = []) ∧
    (∀ text kind, Target.ofText text = ⟨none, kind⟩ ↔ text = kind ∧ '/' ∉ kind.toList) ∧
    (∀ text group kind, Target.ofText text = ⟨some group, kind⟩ ↔
      text = group ++ "/" ++ kind ∧ '/' ∉ kind.toList) ∧
    (∀ rules s', s.requireAll rules = (s', .ok ()) ↔
      (∀ entry ∈ listed rules, isPath entry) ∧
        s' = s.register ((listed rules).filterMap rule?)) ∧
    ∀ rules s' e, s.requireAll rules = (s', .error e) ↔
      ∃ before text cause, FirstFault (listed rules) before text cause ∧
        s' = s.register (before.filterMap rule?) ∧ e = .invalidPath text cause := by
  intro s registered
  have h : s.HasHistory (history fromBuiltin calls) := (hasHistory_start fromBuiltin).callAll calls
  refine ⟨fun d => ?_, h.isEmpty_iff, fun _ _ => Target.ofText_eq_any_iff,
    fun _ _ _ => Target.ofText_eq_group_iff, fun _ _ => requireAll_eq_ok_iff,
    fun _ _ _ => requireAll_eq_error_iff⟩
  rw [requiredPaths, h.pathsOf_eq, h.pathsOf_eq]

end ManifestBundle.Schema
