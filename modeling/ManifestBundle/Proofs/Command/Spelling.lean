import ManifestBundle.Command.Run
import ManifestBundle.Command.Usage
import ManifestBundle.Proofs.Lists
import ManifestBundle.Proofs.Text.Digits
import ManifestBundle.Proofs.Text.Split
import Mathlib.Data.List.Permutation

/-!
# Spelling a command line

An invocation is spelled by the name of its command, its parameters by their long names, each
with its value in the same argument, two hyphens, and the paths. The parameters may stand in any
order in which the values of each keep theirs (`Invocation.IsSpelledBy`).

A parameter that is spelled is taken in with its value, whatever has been before
(`Usage.readArgument_spell`), so all of them are, in their order (`Usage.readCommand_spell`); and
behind the hyphens there are only paths (`Usage.readCommand_paths`). What has been given is then
told by the values of each parameter (`Usage.invocation_eq`). So every command line that spells
an invocation is read as it (`Invocation.parse_of_isSpelledBy`), unless the invocation gives a
group twice, beside the version and alone: then no command is run.
-/

namespace ManifestBundle

open Usage

/-! ## What an invocation gives -/

namespace Command

/-- The name of a command. -/
def word : Command → String
  | .list _ _ => "list"
  | .get _ _ _ _ _ => "get"
  | .validate _ _ => "validate"

/-- Where the parameters of a command stand. -/
def scope : Command → Scope
  | .list _ _ => .list
  | .get _ _ _ _ _ => .get
  | .validate _ _ => .validate

/-- The criteria on documents that a command has. -/
def criteria : Command → Criteria
  | .list criteria _ => criteria
  | .get criteria _ _ _ _ => criteria
  | .validate _ _ => {}

/-- The position of the document to get, if there is one. -/
def index? : Command → Option Nat
  | .get _ index _ _ _ => index
  | _ => none

/-- The key path into the document to get, if there is one. -/
def path? : Command → Option String
  | .get _ _ path _ _ => path
  | _ => none

/-- The format of what to get, if there is one. -/
def output? : Command → Option OutputFormat
  | .get _ _ _ output _ => output
  | _ => none

/-- What is wrong is to be collected. -/
def collects : Command → Bool
  | .validate collect _ => collect
  | _ => false

end Command

/-- A group is given twice: beside the version and alone. -/
def Criteria.isConflicting (c : Criteria) : Bool :=
  c.apiVersion.isSome && c.group.isSome

namespace Invocation

/-- The values that an invocation gives to a parameter with a name, in order. A parameter without
    values has an empty one each time it is given. -/
def values (i : Invocation) : Parameter → List String
  | .config => i.config.toList
  | .verbose => List.replicate i.verbosity ""
  | .apiVersion => i.command.criteria.apiVersion.toList
  | .group => i.command.criteria.group.toList
  | .kind => i.command.criteria.kind.toList
  | .name => i.command.criteria.name.toList
  | .namespaceName => i.command.criteria.namespaceName.toList
  | .labels => i.command.criteria.labels
  | .annotations => i.command.criteria.annotations
  | .exact => if i.command.criteria.exact then [""] else []
  | .index => (i.command.index?.map fun n => String.ofList (Nat.toDigits 10 n)).toList
  | .path => i.command.path?.toList
  | .output => (i.command.output?.map OutputFormat.name).toList
  | .collect => if i.command.collects then [""] else []
  | .help | .version | .paths => []

/-- An invocation that can be spelled: no path is empty, and numbers are not too large. -/
structure IsSpellable (i : Invocation) : Prop where
  config_ne : i.config ≠ some ""
  verbosity_le : i.verbosity ≤ maxCount
  index_lt : ∀ n ∈ i.command.index?, n < UInt64.size
  notMem_paths : "" ∉ i.command.paths

end Invocation

/-- The argument that gives a parameter by its long name, with its value if it takes one. -/
def Usage.Parameter.spell (p : Parameter) (value : String) : String :=
  "--" ++ p.long?.getD "" ++ if p.form.takesValue then "=" ++ value else ""

/-- The arguments spell the invocation: the name of the command, the parameters in an order in
    which the values of each keep theirs, two hyphens, and the paths. -/
def Invocation.IsSpelledBy (i : Invocation) (arguments : List String) : Prop :=
  ∃ es : List (Parameter × String), (∀ p, (es.filter (·.1 = p)).map (·.2) = i.values p) ∧
    arguments = i.command.word :: es.map (fun e => e.1.spell e.2) ++ "--" :: i.command.paths

/-! ## Values that can be given -/

namespace Usage

/-- The parameter can have the value. -/
def Parameter.Fits (p : Parameter) (value : String) : Prop :=
  if p.form.takesValue then p.fault? value = none else value = ""

/-- A position is read back from its digits. -/
theorem index?_toDigits {n : Nat} (h : n < UInt64.size) :
    index? (String.ofList (Nat.toDigits 10 n)) = some n := by
  have hdigits := Text.all_isDigit_toDigits n
  have hplus : '+' ∉ Nat.toDigits 10 n := fun hmem =>
    absurd (List.all_eq_true.1 hdigits _ hmem) (by decide)
  have hempty : (Nat.toDigits 10 n).isEmpty = false := by simp [Nat.toDigits_ne_nil]
  rw [index?, String.toList_ofList]
  generalize hds : Nat.toDigits 10 n = ds at hdigits hplus hempty
  have hvalue : Nat.ofDigitChars 10 ds 0 = n := by rw [← hds, Nat.ofDigitChars_ten_toDigits]
  split
  · next ds => exact absurd List.mem_cons_self hplus
  · simp [hempty, hdigits, hvalue, h]

/-- A format is read back from its name. -/
theorem parse_name (f : OutputFormat) : OutputFormat.parse f.name = .ok f := by
  cases f <;> decide

end Usage

namespace Invocation

variable {i : Invocation} {p : Parameter} {value : String}

/-- A command has the parameters that it has values for. -/
theorem mem_parameters_of_mem_values (h : value ∈ i.values p) :
    p ∈ i.command.scope.parameters := by
  obtain ⟨config, verbosity, command⟩ := i
  cases command <;> cases p <;>
    first
    | exact absurd h List.not_mem_nil
    | simp [Command.scope, Scope.parameters, Scope.criteria]

/-- What is given once has one value at most. -/
theorem length_values_le (h : p.form = .single ∨ p.form = .flag) : (i.values p).length ≤ 1 := by
  have hoption (o : Option String) : o.toList.length ≤ 1 := by cases o <;> simp
  have hflag (b : Bool) : (if b then [""] else []).length ≤ 1 := by cases b <;> simp
  cases p <;>
    first
    | exact hoption _
    | exact hflag _
    | exact absurd h (by decide)

/-- The values of an invocation that can be spelled can be given. -/
theorem fits_of_mem_values (hi : i.IsSpellable) (h : value ∈ i.values p) : p.Fits value := by
  have hflag {b : Bool} (h : value ∈ if b then [""] else []) : value = "" := by
    cases b <;> simp_all
  cases p with
  | config =>
    have hconfig : i.config = some value := Option.mem_toList.1 h
    have hne : value ≠ "" := by
      rintro rfl
      exact hi.config_ne hconfig
    exact if_neg hne
  | verbose => exact List.eq_of_mem_replicate h
  | exact => exact hflag h
  | collect => exact hflag h
  | index =>
    obtain ⟨n, hn, rfl⟩ := Option.map_eq_some_iff.1 (Option.mem_toList.1 h)
    have hvalue := index?_toDigits (hi.index_lt n hn)
    simp [Parameter.Fits, Parameter.form, Form.takesValue, Parameter.fault?, hvalue]
  | output =>
    obtain ⟨f, -, rfl⟩ := Option.map_eq_some_iff.1 (Option.mem_toList.1 h)
    simp [Parameter.Fits, Parameter.form, Form.takesValue, Parameter.fault?, parse_name]
  | help => exact absurd h List.not_mem_nil
  | version => exact absurd h List.not_mem_nil
  | paths => exact absurd h List.not_mem_nil
  | _ => rfl

/-- Help and the version are not asked for. -/
theorem form_ne_of_mem_values (h : value ∈ i.values p) (answer : UsageError) :
    p.form ≠ .request answer := by
  cases p with
  | help => exact absurd h List.not_mem_nil
  | version => exact absurd h List.not_mem_nil
  | _ => exact nofun

end Invocation

/-! ## Taking in what is spelled -/

namespace Usage

variable {s : Scope} {g : Given} {p : Parameter} {value : String}

/-- The characters of the long name. -/
def Parameter.longName (p : Parameter) : List Char :=
  (p.long?.getD "").toList

/-- The long names of what can be given tell them apart, and hold no equals sign. -/
theorem long?_longName (h : p ∈ s.parameters) :
    s.long? p.longName = some p ∧ '=' ∉ p.longName ∧ p.longName ≠ [] := by
  revert p
  cases s <;> decide

theorem toList_spell (p : Parameter) (value : String) :
    (p.spell value).toList =
      '-' :: '-' :: (p.longName ++ if p.form.takesValue then '=' :: value.toList else []) := by
  rw [Parameter.spell, Parameter.longName]
  cases p.form.takesValue <;> simp

/-- What is spelled has the shape of a long parameter. -/
theorem shape_spell (h : p ∈ s.parameters) (value : String) :
    Shape.of (p.spell value) =
      .long (p.longName ++ if p.form.takesValue then '=' :: value.toList else []) := by
  obtain ⟨c, cs, hname⟩ := List.exists_cons_of_ne_nil (long?_longName h).2.2
  rw [Shape.of, toList_spell, hname]
  rfl

/-- A long parameter is read with its value. -/
theorem readLong_spell (h : p ∈ s.parameters) (g : Given) (value : String) :
    readLong s g (p.longName ++ if p.form.takesValue then '=' :: value.toList else []) =
      g.give p (if p.form.takesValue then [value] else []) := by
  obtain ⟨hlong, hequals, -⟩ := long?_longName h
  rw [readLong]
  cases hvalue : p.form.takesValue with
  | true => simp [Text.cutFirst?_append hequals, hlong, hvalue]
  | false => simp [Text.cutFirst?_eq_none_iff.2 hequals, hlong, hvalue]

/-- A parameter and a value that can be given in the scope; help and the version cannot. -/
structure IsGivable (s : Scope) (e : Parameter × String) : Prop where
  mem : e.1 ∈ s.parameters
  form_ne : ∀ answer, e.1.form ≠ .request answer
  fits : e.1.Fits e.2

/-- A value that can be given is accepted, unless the parameter must not come twice. -/
theorem accept_of_isGivable {e : Parameter × String} (h : IsGivable s e)
    (honce : e.1.form = .single ∨ e.1.form = .flag → g.has e.1 = false) :
    g.accept e.1 (if e.1.form.takesValue then [e.2] else []) =
      .ok { g with entries := g.entries ++ [e] } := by
  obtain ⟨p, value⟩ := e
  have hfits := h.fits
  rw [Parameter.Fits] at hfits
  cases hform : p.form with
  | request answer => exact absurd hform (h.form_ne answer)
  | flag =>
    have hnew : g.has p = false := honce (.inr hform)
    have hvalue : value = "" := by simpa [hform, Form.takesValue] using hfits
    simp [Given.accept, hform, hnew, hvalue]
  | count =>
    have hvalue : value = "" := by simpa [hform, Form.takesValue] using hfits
    simp [Given.accept, hform, hvalue]
  | single =>
    have hnew : g.has p = false := honce (.inl hform)
    have hvalue : p.fault? value = none := by simpa [hform, Form.takesValue] using hfits
    simp [Given.accept, hform, Form.takesValue, hnew, hvalue]
  | repeated =>
    have hvalue : p.fault? value = none := by simpa [hform, Form.takesValue] using hfits
    simp [Given.accept, hform, Form.takesValue, hvalue]

/-- What is spelled is taken in. -/
theorem readArgument_spell {e : Parameter × String} (h : IsGivable s e)
    (hsettled : g.pending = none)
    (honce : e.1.form = .single ∨ e.1.form = .flag → g.has e.1 = false) :
    readArgument s false g (e.1.spell e.2) = .ok { g with entries := g.entries ++ [e] } := by
  have hsettle : g.settle = .ok g := by rw [Given.settle, hsettled]
  rw [readArgument, shape_spell h.mem, ← accept_of_isGivable h honce]
  simp only [Bool.false_eq_true, if_false]
  rw [readLong_spell h.mem, Given.give, hsettle]
  rfl

theorem has_eq_false_iff : g.has p = false ↔ p ∉ g.entries.map (·.1) := by
  simp only [Given.has, List.any_eq_false, decide_eq_true_eq, List.mem_map, not_exists, not_and]

/-- All that is spelled is taken in, in its order. -/
theorem readCommand_spell (es : List (Parameter × String)) {es' : List (Parameter × String)}
    (h : ∀ e ∈ es', IsGivable s e)
    (honce : ∀ p, p.form = .single ∨ p.form = .flag → ((es ++ es').map (·.1)).count p ≤ 1)
    (rest : List String) :
    readCommand s false { entries := es } (es'.map (fun e => e.1.spell e.2) ++ rest) =
      readCommand s false { entries := es ++ es' } rest := by
  induction es' generalizing es with
  | nil => rw [List.map_nil, List.nil_append, List.append_nil]
  | cons e es' ih =>
    obtain ⟨he, hes'⟩ := List.forall_mem_cons.1 h
    have hargument : e.1.spell e.2 ≠ "--" := by
      rw [Ne, ← String.toList_inj, toList_spell]
      simp [(long?_longName he.mem).2.2]
    -- What is given once has not been given before, as it is given now.
    have hnew (hform : e.1.form = .single ∨ e.1.form = .flag) :
        ({ entries := es } : Given).has e.1 = false := by
      have hcount := honce e.1 hform
      rw [List.map_append, List.map_cons, List.count_append, List.count_cons_self] at hcount
      refine has_eq_false_iff.2 (List.count_eq_zero.1 ?_)
      dsimp only
      omega
    rw [List.map_cons, List.cons_append, readCommand,
      if_neg (by simpa using hargument), readArgument_spell he rfl hnew]
    have hrest := ih (es ++ [e]) hes' (by simpa using honce)
    rw [List.append_assoc, List.singleton_append] at hrest
    exact hrest

/-- Behind two hyphens there are only paths. -/
theorem readCommand_pending (hs : s ≠ .program) (es : List (Parameter × String))
    (before paths : List String) :
    readCommand s true { entries := es, pending := some (.paths, before) } paths =
      .ok { entries := es, pending := some (.paths, before ++ paths) } := by
  induction paths generalizing before with
  | nil => rw [List.append_nil, readCommand]
  | cons path paths ih =>
    have hpath : readArgument s true { entries := es, pending := some (.paths, before) } path =
        .ok { entries := es, pending := some (.paths, before ++ [path]) } := by
      simp [readArgument, readWord, hs, Given.addPath]
    have hrest := ih (before ++ [path])
    rw [List.append_assoc, List.singleton_append] at hrest
    rw [readCommand, if_neg (by simp), hpath]
    exact hrest

theorem settle_paths (es : List (Parameter × String)) {paths : List String} (hne : paths ≠ [])
    (h : "" ∉ paths) :
    ({ entries := es, pending := some (.paths, paths) } : Given).settle =
      .ok { entries := es ++ paths.map (.paths, ·) } := by
  obtain ⟨path, rest, rfl⟩ := List.exists_cons_of_ne_nil hne
  have hfits : (path :: rest).findSome? Parameter.paths.fault? = none := by
    rw [List.findSome?_eq_none_iff]
    exact fun value hvalue => if_neg (ne_of_mem_of_not_mem hvalue h)
  simp [Given.settle, Given.accept, Parameter.form, hfits]

/-- Behind the hyphens everything is a path, be it spelled like a parameter. -/
theorem readCommand_paths (hs : s ≠ .program) (es : List (Parameter × String))
    {paths : List String} (h : "" ∉ paths) :
    (readCommand s true { entries := es } paths).bind Given.settle =
      .ok { entries := es ++ paths.map (.paths, ·) } := by
  cases paths with
  | nil =>
    rw [readCommand, List.map_nil, List.append_nil]
    rfl
  | cons path paths =>
    have hpath : readArgument s true { entries := es } path =
        .ok { entries := es, pending := some (.paths, [path]) } := by
      simp [readArgument, readWord, hs, Given.addPath, Given.settle]
    rw [readCommand, if_neg (by simp), hpath]
    have hpaths := readCommand_pending hs es [path] paths
    simp only [bind, Except.bind]
    rw [hpaths]
    exact settle_paths es (List.cons_ne_nil path paths) h

/-! ## What has been given -/

theorem has_iff : g.has p = true ↔ g.values p ≠ [] := by
  rw [Ne, Given.values, List.map_eq_nil_iff, List.filter_eq_nil_iff, Given.has, List.any_eq_true]
  simp

theorem value?_eq (g : Given) (p : Parameter) : g.value? p = (g.values p).head? := by
  obtain ⟨es, pending⟩ := g
  rw [Given.value?, Given.values]
  induction es with
  | nil => rfl
  | cons e es ih =>
    rw [List.lookup_cons_eq_ite, List.filter_cons, ih]
    by_cases h : e.1 = p
    · simp [h]
    · simp [h, Ne.symm h]

theorem value?_of_values {o : Option String} (h : g.values p = o.toList) : g.value? p = o := by
  rw [value?_eq, h, Option.head?_toList]

theorem has_of_values {b : Bool} (h : g.values p = if b then [""] else []) : g.has p = b := by
  rw [Bool.eq_iff_iff, has_iff, h]
  cases b <;> simp

variable {i : Invocation} {es : List (Parameter × String)}

/-- The criteria are told by the values of the parameters. -/
theorem criteria_eq (h : ∀ p ≠ .paths, g.values p = i.values p) :
    g.criteria = i.command.criteria := by
  have hexact : g.has .exact = i.command.criteria.exact := has_of_values (h .exact (by decide))
  rw [Given.criteria, hexact]
  simp [value?_eq, h, Invocation.values]

/-- What is given by the same values is the same command. -/
theorem command_eq (hi : i.IsSpellable) (h : ∀ p ≠ .paths, g.values p = i.values p)
    (hpaths : g.values .paths = i.command.paths) : g.command i.command.scope = i.command := by
  have hcriteria := criteria_eq h
  obtain ⟨config, verbosity, command⟩ := i
  cases command with
  | list criteria paths => exact congrArg₂ Command.list hcriteria hpaths
  | get criteria index path output paths =>
    have hindex : (g.value? .index).bind index? = index := by
      rw [value?_of_values (h .index (by decide))]
      cases index with
      | none => rfl
      | some n => exact index?_toDigits (hi.index_lt n rfl)
    have hpath : g.value? .path = path := value?_of_values (h .path (by decide))
    have houtput :
        ((g.value? .output).bind fun text => (OutputFormat.parse text).toOption) = output := by
      rw [value?_of_values (h .output (by decide))]
      cases output with
      | none => rfl
      | some f => exact congrArg Except.toOption (parse_name f)
    change Command.get g.criteria _ _ _ _ = _
    rw [hcriteria, hindex, hpath, houtput, hpaths]
    rfl
  | validate collect paths =>
    have hcollect : g.has .collect = collect := has_of_values (h .collect (by decide))
    exact congrArg₂ Command.validate hcollect hpaths

/-- What is given by the same values is the same invocation. -/
theorem invocation_eq (hi : i.IsSpellable) (h : ∀ p ≠ .paths, g.values p = i.values p)
    (hpaths : g.values .paths = i.command.paths) : invocation {} g i.command.scope = i := by
  have hconfig : g.value? .config = i.config := value?_of_values (h .config (by decide))
  have hverbose : ((if g.has .verbose then g else {}).values .verbose).length = i.verbosity := by
    split
    · rw [h .verbose (by decide), Invocation.values, List.length_replicate]
    · next hnone =>
      rw [has_iff, not_not, h .verbose (by decide), Invocation.values,
        List.replicate_eq_nil_iff] at hnone
      rw [hnone]
      rfl
  dsimp only [invocation]
  rw [hconfig, hverbose, command_eq hi h hpaths, Nat.min_eq_right hi.verbosity_le]
  simp [Given.value?]

theorem readProgram_word (c : Command) (rest : List String) :
    readProgram false {} (c.word :: rest) = .ok ({}, some (c.scope, rest)) := by
  cases c <;> rfl

theorem scope_ne (c : Command) : c.scope ≠ .program := by
  cases c <;> exact nofun

/-- Two hyphens are no argument. -/
theorem readCommand_escape (s : Scope) (g : Given) (rest : List String) :
    readCommand s false g ("--" :: rest) = readCommand s true g rest := by
  rw [readCommand, if_pos (by simp)]

/-- What follows the name of the command is taken in: the parameters, then the paths. -/
theorem readCommand_isSpelledBy (hi : i.IsSpellable)
    (hes : ∀ p, (es.filter (·.1 = p)).map (·.2) = i.values p) :
    (readCommand i.command.scope false {}
        (es.map (fun e => e.1.spell e.2) ++ "--" :: i.command.paths)).bind Given.settle =
      .ok { entries := es ++ i.command.paths.map (.paths, ·) } := by
  have hmem {e : Parameter × String} (he : e ∈ es) : e.2 ∈ i.values e.1 := by
    rw [← hes]
    exact List.mem_map_of_mem (List.mem_filter.2 ⟨he, by simp⟩)
  have hgivable : ∀ e ∈ es, IsGivable i.command.scope e := fun e he =>
    { mem := Invocation.mem_parameters_of_mem_values (hmem he)
      form_ne := Invocation.form_ne_of_mem_values (hmem he)
      fits := Invocation.fits_of_mem_values hi (hmem he) }
  -- A parameter is given as often as the invocation has values of it.
  have honce (p : Parameter) (hp : p.form = .single ∨ p.form = .flag) :
      (es.map (·.1)).count p ≤ 1 := by
    have hlength := Invocation.length_values_le (i := i) hp
    rw [← hes, List.length_map, ← List.countP_eq_length_filter] at hlength
    rw [List.count_eq_countP, List.countP_map]
    simpa [Function.comp_def, ← beq_eq_decide] using hlength
  have hread := readCommand_spell [] hgivable honce ("--" :: i.command.paths)
  rw [hread, readCommand_escape, List.nil_append]
  exact readCommand_paths (scope_ne i.command) es hi.notMem_paths

theorem values_append_paths (hes : ∀ p, (es.filter (·.1 = p)).map (·.2) = i.values p)
    (paths : List String) (p : Parameter) :
    ({ entries := es ++ paths.map (.paths, ·) } : Given).values p =
      i.values p ++ if p = .paths then paths else [] := by
  rw [Given.values, List.filter_append, List.map_append]
  refine congrArg₂ _ (hes p) ?_
  by_cases h : p = .paths
  · simp [h, List.filter_map, Function.comp_def]
  · simp [h, List.filter_map, Function.comp_def, Ne.symm h]

end Usage

/-! ## Reading what is spelled -/

namespace Invocation

/-- A command line that spells an invocation is read as it, unless the invocation gives a group
    twice; then no command is run. -/
theorem parse_of_isSpelledBy {i : Invocation} {arguments : List String} (hi : i.IsSpellable)
    (h : i.IsSpelledBy arguments) :
    parse arguments =
      if i.command.criteria.isConflicting then .error .conflict else .ok i := by
  obtain ⟨es, hes, rfl⟩ := h
  have hread := readCommand_isSpelledBy hi hes
  set g : Given := { entries := es ++ i.command.paths.map (.paths, ·) } with hg
  have hvalues (p : Parameter) (hp : p ≠ .paths) : g.values p = i.values p := by
    rw [hg, values_append_paths hes, if_neg hp, List.append_nil]
  have hpaths : g.values .paths = i.command.paths := by
    rw [hg, values_append_paths hes]
    rfl
  have hconflict : (g.has .apiVersion && g.has .group) = i.command.criteria.isConflicting := by
    rw [Bool.eq_iff_iff, Bool.and_eq_true, has_iff, has_iff, hvalues _ (by decide),
      hvalues _ (by decide), Criteria.isConflicting, Bool.and_eq_true]
    simp [values, Option.isSome_iff_ne_none]
  rw [parse, List.cons_append, readProgram_word]
  -- Whatever the command has been given and not taken in yet is taken in at the end.
  cases hgiven : readCommand i.command.scope false {}
      (es.map (fun e => e.1.spell e.2) ++ "--" :: i.command.paths) with
  | error e =>
    rw [hgiven] at hread
    cases hread
  | ok given =>
    have hsettle : given.settle = .ok g := by
      rw [hgiven] at hread
      exact hread
    simp only [bind, Except.bind, hgiven, hsettle, hconflict]
    cases hboth : i.command.criteria.isConflicting with
    | true => rfl
    | false => exact congrArg Except.ok (invocation_eq hi hvalues hpaths)

/-- Gets with all that can be given, but for the version; values look like arguments. -/
def crowded : Invocation where
  config := some "-"
  verbosity := 2
  command := .get
    { group := some "", kind := some "a=b", name := some "--name", namespaceName := some "=",
      labels := ["b=2,a=1", "", "a=3"], annotations := ["x y", "--"], exact := true }
    (some 10) (some "spec.ports[0]") (some .json) ["-v", "get", "--"]

/-- A line that spells it. -/
def crowdedLine : List String :=
  ["get", "--labels=b=2,a=1", "--verbose", "--output=json", "--annotations=x y", "--namespace==",
    "--labels=", "--group=", "--exact", "--config=-", "--name=--name", "--index=10", "--verbose",
    "--kind=a=b", "--annotations=--", "--path=spec.ports[0]", "--labels=a=3",
    "--", "-v", "get", "--"]

/-- Lists by a version and a group. -/
def contradictory : Invocation where
  config := none
  verbosity := 0
  command := .list { apiVersion := some "apps/v1", group := some "apps" } []

/-- A line with parameters in disorder, twice, and with values that look like others, and a line
    that is refused. -/
theorem parse_crowdedLine :
    crowded.IsSpellable ∧ crowded.IsSpelledBy crowdedLine ∧ parse crowdedLine = .ok crowded ∧
      contradictory.IsSpellable ∧
      contradictory.IsSpelledBy ["list", "--group=apps", "--api-version=apps/v1", "--"] ∧
      parse ["list", "--group=apps", "--api-version=apps/v1", "--"] = .error .conflict := by
  have hcrowded : crowded.IsSpellable :=
    { config_ne := by decide
      verbosity_le := by decide
      index_lt := by simp [crowded, Command.index?, UInt64.size]
      notMem_paths := by decide }
  have hcrowdedLine : crowded.IsSpelledBy crowdedLine := by
    refine ⟨[(.labels, "b=2,a=1"), (.verbose, ""), (.output, "json"), (.annotations, "x y"),
      (.namespaceName, "="), (.labels, ""), (.group, ""), (.exact, ""), (.config, "-"),
      (.name, "--name"), (.index, "10"), (.verbose, ""), (.kind, "a=b"), (.annotations, "--"),
      (.path, "spec.ports[0]"), (.labels, "a=3")], fun p => ?_, ?_⟩
    · cases p <;> rfl
    · rfl
  have hcontradictory : contradictory.IsSpellable :=
    { config_ne := by decide
      verbosity_le := by decide
      index_lt := by simp [contradictory, Command.index?]
      notMem_paths := by decide }
  have hspelled :
      contradictory.IsSpelledBy ["list", "--group=apps", "--api-version=apps/v1", "--"] := by
    refine ⟨[(.group, "apps"), (.apiVersion, "apps/v1")], fun p => ?_, ?_⟩
    · cases p <;> rfl
    · rfl
  exact ⟨hcrowded, hcrowdedLine, parse_of_isSpelledBy hcrowded hcrowdedLine, hcontradictory,
    hspelled, parse_of_isSpelledBy hcontradictory hspelled⟩

end Invocation

end ManifestBundle
