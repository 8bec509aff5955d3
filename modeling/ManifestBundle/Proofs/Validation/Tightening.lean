import ManifestBundle.Proofs.Schema.History
import ManifestBundle.Proofs.Validation.Document
import ManifestBundle.Proofs.Validation.FailFast

/-!
# Rules only tighten validation

A rule adds its path to what is required of the documents of its target, and takes nothing away
(`mem_requiredPaths_register_iff`); what is required of other documents stays as it is
(`requiredPaths_register_of_not_appliesTo`). As calls do nothing but register rules, they make no
document valid that was not, and do not touch the verdict on others
(`rules_only_tighten_validation`).

Settings that require less (`Config.Relaxes`) describe a schema if the others do, and one that
requires less (`Config.Relaxes.exists_schema`). So a bundle that passes under settings passes
under these, too.
-/

namespace ManifestBundle

namespace Schema

variable {s s' : Schema} {d : Document} {rule : Rule} {rules : List Rule} {target : Target}
  {path : KeyPath}

/-! ## Targets of a document -/

/-- The target is the kind of the document, in every group or in the group of the document. -/
def Target.AppliesTo (target : Target) (d : Document) : Prop :=
  target.kind = d.kind ∧ (target.group = none ∨ target.group = some d.group)

instance (target : Target) (d : Document) : Decidable (target.AppliesTo d) :=
  inferInstanceAs (Decidable (_ ∧ _))

theorem Target.appliesTo_iff :
    target.AppliesTo d ↔ target = ⟨none, d.kind⟩ ∨ target = ⟨some d.group, d.kind⟩ := by
  obtain ⟨group, kind⟩ := target
  rw [AppliesTo, Target.mk.injEq, Target.mk.injEq, ← or_and_right, and_comm]

/-! ## Registering rules -/

theorem register_cons (s : Schema) (rule : Rule) (rules : List Rule) :
    s.register (rule :: rules) = (s.add rule).register rules :=
  rfl

theorem pathsOf_add_self (s : Schema) (rule : Rule) :
    (s.add rule).pathsOf rule.target =
      if rule.path ∈ s.pathsOf rule.target then s.pathsOf rule.target
      else s.pathsOf rule.target ++ [rule.path] := by
  rw [pathsOf, add, lookup_insert, if_pos rfl]
  rfl

theorem pathsOf_add_of_ne (h : rule.target ≠ target) :
    (s.add rule).pathsOf target = s.pathsOf target := by
  rw [pathsOf, add, lookup_insert, if_neg (Ne.symm h), pathsOf]

/-- A rule adds its path to those of its target, and none to those of another. -/
theorem mem_pathsOf_add_iff :
    path ∈ (s.add rule).pathsOf target ↔
      path ∈ s.pathsOf target ∨ rule.target = target ∧ rule.path = path := by
  by_cases ht : rule.target = target
  · subst ht
    rw [pathsOf_add_self, and_iff_right rfl]
    split
    · next hold =>
      refine (or_iff_left_of_imp ?_).symm
      rintro rfl
      exact hold
    · rw [List.mem_append, List.mem_singleton, eq_comm]
  · rw [pathsOf_add_of_ne ht, or_iff_left fun h => ht h.1]

/-- The schema requires the path of the documents of the target exactly if it did before or one
    of the rules that are registered says so. -/
theorem mem_pathsOf_register_iff :
    path ∈ (s.register rules).pathsOf target ↔
      path ∈ s.pathsOf target ∨ ∃ rule ∈ rules, rule.target = target ∧ rule.path = path := by
  induction rules generalizing s with
  | nil => simp [register]
  | cons rule rules ih =>
    simp only [register_cons, ih, mem_pathsOf_add_iff, List.mem_cons, exists_eq_or_imp, or_assoc]

theorem pathsOf_register_of_ne (h : ∀ rule ∈ rules, rule.target ≠ target) :
    (s.register rules).pathsOf target = s.pathsOf target := by
  induction rules generalizing s with
  | nil => rfl
  | cons rule rules ih =>
    obtain ⟨hrule, hrules⟩ := List.forall_mem_cons.1 h
    rw [register_cons, ih hrules, pathsOf_add_of_ne hrule]

/-! ## What is required of a document -/

/-- What is required of a document are the paths of the targets that apply to it. -/
theorem mem_requiredPaths_iff :
    path ∈ s.requiredPaths d ↔ ∃ target, target.AppliesTo d ∧ path ∈ s.pathsOf target := by
  simp only [requiredPaths, List.mem_append, Target.appliesTo_iff, or_and_right, exists_or,
    exists_eq_left]

/-- Registering adds to the paths of a document those of the rules that apply to it. -/
theorem mem_requiredPaths_register_iff :
    path ∈ (s.register rules).requiredPaths d ↔
      path ∈ s.requiredPaths d ∨ ∃ rule ∈ rules, rule.target.AppliesTo d ∧ rule.path = path := by
  simp only [mem_requiredPaths_iff, mem_pathsOf_register_iff, and_or_left, exists_or]
  refine or_congr_right ⟨?_, ?_⟩
  · rintro ⟨_, happlies, rule, hrule, rfl, hpath⟩
    exact ⟨rule, hrule, happlies, hpath⟩
  · rintro ⟨rule, hrule, happlies, hpath⟩
    exact ⟨_, happlies, rule, hrule, rfl, hpath⟩

/-- Rules that do not apply to a document leave what is required of it, and the order of that. -/
theorem requiredPaths_register_of_not_appliesTo (h : ∀ rule ∈ rules, ¬ rule.target.AppliesTo d) :
    (s.register rules).requiredPaths d = s.requiredPaths d := by
  have hother {target : Target} (htarget : target.AppliesTo d) :
      (s.register rules).pathsOf target = s.pathsOf target := by
    refine pathsOf_register_of_ne fun rule hrule => ?_
    rintro rfl
    exact h rule hrule htarget
  rw [requiredPaths, requiredPaths, hother (Target.appliesTo_iff.2 (.inl rfl)),
    hother (Target.appliesTo_iff.2 (.inr rfl))]

/-! ## Calls -/

/-- The targets of a call, whether it fails or not. -/
def Call.targets : Call → List Target
  | require kind _ => [⟨none, kind⟩]
  | requireInGroup group kind _ => [⟨some group, kind⟩]
  | requireAll rules => rules.map fun (target, _) => .ofText target

theorem mem_listed_iff {entries : List (String × List String)} {entry : Target × String} :
    entry ∈ listed entries ↔
      ∃ text texts, (text, texts) ∈ entries ∧ entry.1 = .ofText text ∧ entry.2 ∈ texts := by
  obtain ⟨target, path⟩ := entry
  simp only [listed, List.mem_flatMap, List.mem_map, Prod.mk.injEq, Prod.exists]
  refine exists_congr fun text => exists_congr fun texts => and_congr_right' ?_
  constructor
  · rintro ⟨_, hpath, rfl, rfl⟩
    exact ⟨rfl, hpath⟩
  · rintro ⟨rfl, hpath⟩
    exact ⟨path, hpath, rfl, rfl⟩

/-- A call registers rules for its targets only. -/
theorem Call.target_mem_targets {c : Call} (h : rule ∈ c.registered) : rule.target ∈ c.targets := by
  cases c with
  | require kind path =>
    obtain rfl := List.mem_singleton.1 h
    exact List.mem_singleton_self _
  | requireInGroup group kind path =>
    obtain rfl := List.mem_singleton.1 h
    exact List.mem_singleton_self _
  | requireAll entries =>
    obtain ⟨entry, hentry, hrule⟩ := List.mem_filterMap.1 h
    obtain ⟨path, -, rfl⟩ := Option.map_eq_some_iff.1 hrule
    obtain ⟨text, texts, hmem, htarget, -⟩ :=
      mem_listed_iff.1 ((List.takeWhile_subset _) hentry)
    exact List.mem_map.2 ⟨_, hmem, htarget.symm⟩

end Schema

namespace Config

variable {c more less : Config} {s : Schema} {d : Document}

/-- The settings require less: some of the paths or the built-in schema are left out. -/
structure Relaxes (less more : Config) : Prop where
  builtinSchema : less.builtinSchema → more.builtinSchema
  requiredKeys (target : String) (texts : List String) (h : (target, texts) ∈ less.requiredKeys) :
    ∃ texts', (target, texts') ∈ more.requiredKeys ∧ texts ⊆ texts'

/-- Rules and the built-in schema may be left out. -/
theorem relaxes_of_sublist {requiredKeys : List (String × List String)} {builtinSchema : Bool}
    (hkeys : requiredKeys.Sublist c.requiredKeys) (hbuiltin : builtinSchema → c.builtinSchema) :
    { c with builtinSchema, requiredKeys }.Relaxes c :=
  ⟨hbuiltin, fun _ texts h => ⟨texts, hkeys.subset h, List.Subset.refl _⟩⟩

/-- Settings describe a schema exactly if all of their paths are well formed. -/
theorem schema_eq_ok_iff :
    c.schema = .ok s ↔
      (∀ entry ∈ Schema.listed c.requiredKeys, Schema.isPath entry) ∧
        s = (Schema.start c.builtinSchema).register
          ((Schema.listed c.requiredKeys).filterMap Schema.rule?) := by
  rw [← Schema.requireAll_eq_ok_iff]
  cases h : (Schema.start c.builtinSchema).requireAll c.requiredKeys with
  | mk s' result =>
    rw [Schema.start] at h
    simp only [schema, h]
    cases result <;> simp

theorem Relaxes.listed_subset (h : less.Relaxes more) :
    Schema.listed less.requiredKeys ⊆ Schema.listed more.requiredKeys := by
  intro entry hentry
  obtain ⟨text, texts, hmem, htarget, hpath⟩ := Schema.mem_listed_iff.1 hentry
  obtain ⟨texts', hmem', hsubset⟩ := h.requiredKeys text texts hmem
  exact Schema.mem_listed_iff.2 ⟨text, texts', hmem', htarget, hsubset hpath⟩

theorem requiredPaths_start_subset {fromBuiltin fromBuiltin' : Bool}
    (h : fromBuiltin → fromBuiltin') (d : Document) :
    (Schema.start fromBuiltin).requiredPaths d ⊆ (Schema.start fromBuiltin').requiredPaths d := by
  cases fromBuiltin with
  | false => exact List.nil_subset _
  | true => rw [h rfl]; exact List.Subset.refl _

/-- Settings that require less describe a schema that requires less of every document. -/
theorem Relaxes.exists_schema (h : less.Relaxes more) (hs : more.schema = .ok s) :
    ∃ s', less.schema = .ok s' ∧ ∀ d, s'.requiredPaths d ⊆ s.requiredPaths d := by
  obtain ⟨hpaths, rfl⟩ := schema_eq_ok_iff.1 hs
  refine ⟨_, schema_eq_ok_iff.2 ⟨fun entry hentry => hpaths entry (h.listed_subset hentry), rfl⟩,
    fun d path hpath => ?_⟩
  rw [Schema.mem_requiredPaths_register_iff] at hpath ⊢
  refine hpath.imp (fun hpath => ?_) ?_
  · exact requiredPaths_start_subset h.builtinSchema d hpath
  · rintro ⟨rule, hrule, happlies⟩
    exact ⟨rule, List.filterMap_subset _ h.listed_subset hrule, happlies⟩

/-- What is valid under settings is valid under settings that require less. -/
theorem Relaxes.validate (h : less.Relaxes more) {b : Bundle} {collect collect' : Bool}
    (hb : (b.validate more collect).error = none) : (b.validate less collect').error = none := by
  rw [Bundle.validate_succeeds_iff] at hb ⊢
  obtain ⟨s, hs, hvalid, hduplicates⟩ := hb
  obtain ⟨s', hs', hsubset⟩ := h.exists_schema hs
  refine ⟨s', hs', fun d hd => ?_, hduplicates⟩
  exact Schema.validate_eq_ok_of_subset (hsubset d) (hvalid d hd)

end Config

/-! ## Tightening -/

/-- A call that registers rules, even one that fails, makes no document valid that was not, and
    leaves the verdict on a document to which none of its targets applies. So a bundle that is
    valid under settings stays valid when some required paths or the built-in schema are left
    out. -/
theorem rules_only_tighten_validation (s : Schema) (c : Schema.Call) (d : Document) (b : Bundle)
    (less more : Config) :
    ((s.call c).validate d = .ok () → s.validate d = .ok ()) ∧
    ((∀ target ∈ c.targets, ¬ target.AppliesTo d) → (s.call c).validate d = s.validate d) ∧
    (less.Relaxes more → ∀ collect collect' paths,
      (Command.runOn b more (.validate collect paths)).error = none →
      (Command.runOn b less (.validate collect' paths)).error = none) := by
  rw [Schema.call_eq]
  refine ⟨Schema.validate_eq_ok_of_subset fun path hpath => ?_, fun h => ?_,
    fun h collect collect' paths hb => h.validate hb⟩
  · exact Schema.mem_requiredPaths_register_iff.2 (.inl hpath)
  · refine Schema.validate_congr (Schema.requiredPaths_register_of_not_appliesTo ?_)
    exact fun rule hrule => h _ (Schema.Call.target_mem_targets hrule)

/-- A deployment with two replicas. -/
def deployment (group : String) : Document where
  group := group
  version := "v1"
  kind := "Deployment"
  name := "web"
  data := .map [("spec", .map [("replicas", .number (.integer 2))])]

/-- Rules in text, of which the second is at fault. -/
def faultyRules : List (String × List String) :=
  [("apps/Deployment", ["spec.replicas", "spec["]), ("Pod", ["spec.containers"])]

/-- Settings with rules for two kinds. -/
def strictSettings : Config :=
  { requiredKeys := [("apps/Deployment", ["spec.replicas", "spec"]), ("Pod", ["spec.containers"])] }

/-- Settings without the rules for one of them, and without the built-in schema. -/
def laxSettings : Config :=
  { strictSettings with
    builtinSchema := false
    requiredKeys := [("apps/Deployment", ["spec.replicas", "spec"])] }

/-- The rule before the fault makes no deployment valid that was not, and leaves alone those of
    other groups; and what has passed under all rules passes without some of them. -/
theorem rules_only_tighten_validation_of_fault :
    (Schema.builtin.requireAll faultyRules).2.isOk = false ∧
    (Schema.builtin.call (.requireAll faultyRules)).validate (deployment "apps") = .ok () ∧
    Schema.builtin.validate (deployment "apps") = .ok () ∧
    (∀ target ∈ (Schema.Call.requireAll faultyRules).targets,
      ¬ target.AppliesTo (deployment "")) ∧
    (Schema.builtin.call (.requireAll faultyRules)).validate (deployment "") =
      Schema.builtin.validate (deployment "") ∧
    laxSettings.Relaxes strictSettings ∧
    (Command.runOn ⟨[deployment "apps"]⟩ strictSettings (.validate false [])).error = none ∧
    (Command.runOn ⟨[deployment "apps"]⟩ laxSettings (.validate true [])).error = none := by
  have hfails : (Schema.builtin.requireAll faultyRules).2.isOk = false := by decide +kernel
  have hvalid : (Schema.builtin.call (.requireAll faultyRules)).validate (deployment "apps") =
      .ok () := by decide +kernel
  have hother : ∀ target ∈ (Schema.Call.requireAll faultyRules).targets,
      ¬ target.AppliesTo (deployment "") := by decide +kernel
  have hlax : laxSettings.Relaxes strictSettings :=
    Config.relaxes_of_sublist (List.Sublist.cons_cons _ (List.nil_sublist _)) nofun
  have hstrict : (Command.runOn ⟨[deployment "apps"]⟩ strictSettings (.validate false [])).error =
      none := by decide +kernel
  have htightens (group : String) := rules_only_tighten_validation Schema.builtin
    (.requireAll faultyRules) (deployment group) ⟨[deployment "apps"]⟩ laxSettings strictSettings
  exact ⟨hfails, hvalid, (htightens "apps").1 hvalid, hother, (htightens "").2.1 hother, hlax,
    hstrict, (htightens "").2.2 hlax false true [] hstrict⟩

end ManifestBundle
