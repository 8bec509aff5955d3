import ManifestBundle.Proofs.Equality
import ManifestBundle.Proofs.Except
import ManifestBundle.Source
import Mathlib.Data.List.Basic

/-!
# Loading several sources

What sources hold together can be told from what each of them holds (`Source.documents`).
Only standard input has a state: once it has been read nothing is left of it, and nothing
is what an empty text holds. So of several places that standard input has among the
sources, the first one counts (`Source.contributing`), and loading is collecting what the
sources hold, one by one, up to the first that fails (`Source.loadAll_eq`).

* `Source.loadAll_eq_ok_iff`, `Source.loadAll_eq_error_iff`: when loading succeeds, and the
  source that it fails at;
* `Source.loadAll_append`: a list of sources is loaded part by part;
* `Source.loadAll_memory`: texts in memory need neither files nor standard input;
* `Source.ofPaths_eq`: the sources of a command line are those of its paths in order.
-/

namespace ManifestBundle

namespace Source

variable (files : FileTree) (input : List UInt8)

/-! ## One source -/

/-- What a source holds, standard input being the octets that are left of it. -/
def documents (s : Source) : Except LoadError (List Document) :=
  (s.load files input).map Prod.fst

/-- What is left of standard input when a source has been read. -/
def inputAfter : Source → List UInt8
  | .standardInput => []
  | _ => input

/-- A source is read and then parsed. -/
theorem documents_eq (s : Source) :
    s.documents files input =
      ((s.read files input).mapError .source).bind fun r =>
        (Document.parseStream r.1).mapError (.unparsed s.name) := by
  rw [documents, load]
  cases s.read files input with
  | error e => rfl
  | ok r =>
    simp only [Except.mapError, Except.bind]
    cases Document.parseStream r.1 <;> rfl

theorem documents_eq_ok_iff {s : Source} {ds : List Document} :
    s.documents files input = .ok ds ↔
      ∃ r, s.read files input = .ok r ∧ Document.parseStream r.1 = .ok ds := by
  rw [documents_eq, Except.bind_eq_ok_iff]
  simp only [Except.mapError_eq_ok_iff]

/-- Only standard input is used up, and then there is nothing left of it. -/
theorem load_eq (s : Source) :
    s.load files input = (s.documents files input).map (·, s.inputAfter input) := by
  have hread {text : String} {rest : List UInt8} (h : s.read files input = .ok (text, rest)) :
      rest = s.inputAfter input := by
    cases s with
    | file path =>
      obtain ⟨_, -, h⟩ := Except.bind_eq_ok_iff.1 h
      cases h
      rfl
    | standardInput =>
      obtain ⟨_, -, h⟩ := Except.bind_eq_ok_iff.1 h
      cases h
      rfl
    | memory name text =>
      cases h
      rfl
  rw [documents, load]
  cases hs : s.read files input with
  | error e => rfl
  | ok r =>
    rw [← hread hs]
    simp only
    cases Document.parseStream r.1 <;> rfl

/-- What is left of standard input matters to no other source. -/
theorem documents_of_ne {s : Source} (h : s ≠ .standardInput) (input' : List UInt8) :
    s.documents files input' = s.documents files input := by
  cases s with
  | file path =>
    rw [documents_eq, documents_eq, read, read]
    cases fileText files path <;> rfl
  | standardInput => exact absurd rfl h
  | memory name text =>
    rw [documents_eq, documents_eq, read, read]
    rfl

theorem inputAfter_of_ne {s : Source} (h : s ≠ .standardInput) : s.inputAfter input = input := by
  cases s with
  | file path => rfl
  | standardInput => exact absurd rfl h
  | memory name text => rfl

/-- Nothing is left in standard input, so nothing is in it. -/
theorem documents_standardInput_nil : documents files [] .standardInput = .ok [] := by
  have htext : inputText [] = .ok "" := by decide
  have hparse : Document.parseStream "" = .ok [] := by decide +kernel
  rw [documents_eq_ok_iff, read, htext]
  exact ⟨("", []), rfl, hparse⟩

/-! ## Several sources -/

theorem loadAll_cons (s : Source) (ss : List Source) :
    loadAll files input (s :: ss) =
      (s.documents files input).bind fun ds =>
        (loadAll files (s.inputAfter input) ss).map fun r => (ds ++ r.1, r.2) := by
  rw [loadAll, load_eq]
  cases s.documents files input with
  | error e => rfl
  | ok ds =>
    cases h : loadAll files (s.inputAfter input) ss with
    | error e => simp only [bind, Except.bind, Except.map, h]
    | ok r => simp only [bind, Except.bind, Except.map, h]; rfl

/-- A list of sources is loaded part by part. -/
theorem loadAll_append (ss ts : List Source) :
    loadAll files input (ss ++ ts) =
      (loadAll files input ss).bind fun r =>
        (loadAll files r.2 ts).map fun r' => ((Bundle.merge ⟨r.1⟩ ⟨r'.1⟩).documents, r'.2) := by
  induction ss generalizing input with
  | nil =>
    simp only [List.nil_append, loadAll, Except.bind]
    cases loadAll files input ts <;> rfl
  | cons s ss ih =>
    rw [List.cons_append, loadAll_cons, loadAll_cons]
    cases s.documents files input with
    | error e => rfl
    | ok ds =>
      simp only [Except.bind, ih]
      cases loadAll files (s.inputAfter input) ss with
      | error e => rfl
      | ok r =>
        simp only [Except.map, Bundle.merge]
        cases loadAll files r.2 ts with
        | error e => rfl
        | ok r' => simp only [List.append_assoc]

/-- The sources with standard input at the first of its places only. -/
def contributing : List Source → List Source
  | [] => []
  | .standardInput :: ss => .standardInput :: ss.filter (· ≠ .standardInput)
  | s :: ss => s :: contributing ss

theorem contributing_of_ne {s : Source} (h : s ≠ .standardInput) (ss : List Source) :
    contributing (s :: ss) = s :: contributing ss := by
  cases s with
  | file path => rfl
  | standardInput => exact absurd rfl h
  | memory name text => rfl

/-- The first source with a property is the first that contributes and has it. -/
theorem find?_contributing (p : Source → Bool) (ss : List Source) :
    (contributing ss).find? p = ss.find? p := by
  induction ss with
  | nil => rfl
  | cons s ss ih =>
    by_cases hs : s = .standardInput
    · subst hs
      by_cases hp : p .standardInput
      · rw [contributing, List.find?_cons_of_pos hp, List.find?_cons_of_pos hp]
      · -- Standard input does not have the property at its later places either.
        have hfilter : (fun s => decide (decide (s ≠ .standardInput) = true ∧ p s = true)) = p := by
          funext s
          by_cases hs : s = .standardInput <;> simp [hs, hp]
        rw [contributing, List.find?_cons_of_neg hp, List.find?_cons_of_neg hp,
          List.find?_filter, hfilter]
    · rw [contributing_of_ne hs, List.find?_cons, List.find?_cons, ih]

theorem forall_mem_contributing_iff (p : Source → Bool) (ss : List Source) :
    (∀ s ∈ contributing ss, p s) ↔ ∀ s ∈ ss, p s := by
  have hall (ts : List Source) : (∀ s ∈ ts, p s) ↔ ts.find? (!p ·) = none := by
    simp [List.find?_eq_none]
  rw [hall, hall, find?_contributing]

/-- Once nothing is left of standard input, only the other sources count. -/
theorem loadAll_of_exhausted (ss : List Source) :
    loadAll files [] ss =
      ((ss.filter (· ≠ .standardInput)).mapM (documents files input)).map
        fun dss => (dss.flatten, []) := by
  induction ss with
  | nil => rfl
  | cons s ss ih =>
    rw [loadAll_cons]
    by_cases hs : s = .standardInput
    · subst hs
      rw [documents_standardInput_nil, List.filter_cons_of_neg (by simp), ← ih]
      simp only [Except.bind, inputAfter]
      cases loadAll files [] ss <;> rfl
    · rw [documents_of_ne files input hs, inputAfter_of_ne [] hs, ih,
        List.filter_cons_of_pos (by simpa using hs), List.mapM_cons]
      cases s.documents files input with
      | error e => rfl
      | ok ds => cases (ss.filter (· ≠ .standardInput)).mapM (documents files input) <;> rfl

/-- Loading collects what the contributing sources hold, up to the first that fails. -/
theorem loadAll_eq (ss : List Source) :
    loadAll files input ss =
      ((contributing ss).mapM (documents files input)).map
        fun dss => (dss.flatten, if .standardInput ∈ ss then [] else input) := by
  induction ss with
  | nil => rfl
  | cons s ss ih =>
    rw [loadAll_cons]
    by_cases hs : s = .standardInput
    · -- The other sources are loaded with nothing left of standard input.
      subst hs
      rw [contributing, List.mapM_cons, inputAfter, loadAll_of_exhausted files input,
        if_pos List.mem_cons_self]
      cases documents files input .standardInput with
      | error e => rfl
      | ok ds => cases (ss.filter (· ≠ .standardInput)).mapM (documents files input) <;> rfl
    · have hmem : .standardInput ∈ s :: ss ↔ .standardInput ∈ ss := by
        simp [Ne.symm hs]
      rw [contributing_of_ne hs, List.mapM_cons, inputAfter_of_ne input hs, ih]
      simp only [hmem]
      cases s.documents files input with
      | error e => rfl
      | ok ds => cases (contributing ss).mapM (documents files input) <;> rfl

variable {files input}

/-- Loading succeeds if every source can be read and parsed. -/
theorem loadAll_eq_ok_iff {ss : List Source} {loaded : List Document × List UInt8} :
    loadAll files input ss = .ok loaded ↔
      (∀ s ∈ ss, (s.documents files input).isOk) ∧
      (((contributing ss).filterMap fun s => (s.documents files input).toOption).flatten,
        if .standardInput ∈ ss then [] else input) = loaded := by
  rw [loadAll_eq, Except.map_eq_ok_iff]
  simp only [Except.mapM_eq_ok_iff, and_assoc, exists_and_left, exists_eq_left']
  rw [forall_mem_contributing_iff fun s => (s.documents files input).isOk]

/-- Loading fails as the first source that cannot be read or parsed. -/
theorem loadAll_eq_error_iff {ss : List Source} {e : LoadError} :
    loadAll files input ss = .error e ↔
      ∃ before s after, ss = before ++ s :: after ∧
        (∀ b ∈ before, (b.documents files input).isOk) ∧ s.documents files input = .error e := by
  rw [loadAll_eq, Except.map_eq_error_iff, Except.mapM_eq_error_iff]
  simp only [find?_contributing, List.find?_eq_some_iff_append, Bool.not_not]
  constructor
  · rintro ⟨s, ⟨-, before, after, hss, hbefore⟩, hs⟩
    exact ⟨before, s, after, hss, hbefore, hs⟩
  · rintro ⟨before, s, after, hss, hbefore, hs⟩
    refine ⟨s, ⟨?_, before, after, hss, hbefore⟩, hs⟩
    rw [hs]
    rfl

variable (files input)

theorem documents_memory (m : MemoryText) : m.source.documents files input = m.load := by
  have hread : m.source.read files input = .ok (m.text, input) := rfl
  have hname : m.source.name = m.name := rfl
  rw [documents_eq, hread, Except.mapError_ok, MemoryText.load, hname]
  simp only [Except.bind]

/-- Texts in memory are loaded alone as they are among other sources. -/
theorem loadAll_memory (ms : List MemoryText) :
    loadAll files input (ms.map MemoryText.source) = (MemoryText.loadAll ms).map (·, input) := by
  induction ms with
  | nil => rfl
  | cons m ms ih =>
    have hafter : m.source.inputAfter input = input := rfl
    rw [List.map_cons, loadAll_cons, documents_memory, hafter, ih, MemoryText.loadAll]
    cases m.load with
    | error e => rfl
    | ok ds => cases MemoryText.loadAll ms <;> rfl

/-! ## The sources of a command line -/

/-- The sources of a path, of a directory those of the manifest files below it. -/
def expansion (withGzip : Bool) (path : String) : List Source :=
  if path = "-" then [.standardInput]
  else if files.isDirectory path then
    ((files.manifestFiles? path withGzip).getD []).map .file
  else [.file path]

theorem ofPath_toOption {withGzip : Bool} {path : String}
    (h : (ofPath files withGzip path).isOk) :
    (ofPath files withGzip path).toOption = some (expansion files withGzip path) := by
  rw [ofPath] at h ⊢
  rw [expansion]
  split
  · rfl
  · next hpath =>
    rw [if_neg hpath] at h
    split
    · next hdirectory =>
      rw [if_pos hdirectory] at h
      cases hfiles : files.manifestFiles? path withGzip with
      | none =>
        rw [hfiles] at h
        cases h
      | some ps => rfl
    · rfl

variable {files}

/-- The sources of a command line are those of its paths in order. -/
theorem ofPaths_eq {withGzip : Bool} {paths : List String} {sources : List Source}
    (h : ofPaths files withGzip paths = .ok sources) :
    sources =
      if paths.isEmpty then [.standardInput] else paths.flatMap (expansion files withGzip) := by
  rw [ofPaths] at h
  split
  · next hpaths =>
    rw [if_pos hpaths] at h
    exact (Except.ok.inj h).symm
  · next hpaths =>
    rw [if_neg hpaths] at h
    obtain ⟨sss, hsss, h⟩ := Except.bind_eq_ok_iff.1 h
    obtain ⟨hok, rfl⟩ := Except.mapM_eq_ok_iff.1 hsss
    rw [← Except.ok.inj h, List.flatMap, ← List.filterMap_eq_map]
    exact congrArg List.flatten
      (List.filterMap_congr fun path hpath => ofPath_toOption files (hok path hpath))

/-- The sources of a command line are loaded in the order of its paths, standard input
    once, up to the first that cannot be read or parsed. The sources are those of the paths,
    of a directory the manifest files below it. Loading them succeeds if each of them can be
    read and parsed, and then the documents are those of one source after the other, where
    standard input counts at its first place only. Otherwise the error is that of the first
    source that has one, and names the source if it cannot be parsed.

    Texts in memory are loaded as any other sources, and any sources are loaded as those of
    a first part and then those of the rest, merged. -/
theorem loadAll_ofPaths {withGzip : Bool} {paths : List String} {sources : List Source}
    (h : ofPaths files withGzip paths = .ok sources) (input : List UInt8) :
    (sources =
      if paths.isEmpty then [.standardInput] else paths.flatMap (expansion files withGzip)) ∧
    ((∃ loaded, loadAll files input sources = .ok loaded) ↔
      ∀ s ∈ sources, ∃ r ds, s.read files input = .ok r ∧ Document.parseStream r.1 = .ok ds) ∧
    (∀ ds rest, loadAll files input sources = .ok (ds, rest) →
      ((contributing sources).filterMap fun s => (s.documents files input).toOption).flatten =
          ds ∧
        (if .standardInput ∈ sources then [] else input) = rest) ∧
    (∀ e, loadAll files input sources = .error e ↔
      ∃ before s after, sources = before ++ s :: after ∧
        (∀ b ∈ before, (b.documents files input).isOk) ∧ s.documents files input = .error e) ∧
    (∀ s : Source, s.documents files input =
      ((s.read files input).mapError .source).bind fun r =>
        (Document.parseStream r.1).mapError (.unparsed s.name)) ∧
    (∀ name cause, (LoadError.unparsed name cause).message =
      "Failed to parse " ++ name ++ ": " ++ cause.message) ∧
    (∀ ms, loadAll files input (ms.map MemoryText.source) =
      (MemoryText.loadAll ms).map (·, input)) ∧
    ∀ ss ts, loadAll files input (ss ++ ts) =
      (loadAll files input ss).bind fun r =>
        (loadAll files r.2 ts).map fun r' =>
          ((Bundle.merge ⟨r.1⟩ ⟨r'.1⟩).documents, r'.2) := by
  refine ⟨ofPaths_eq h, ?_, ?_, fun _ => loadAll_eq_error_iff, documents_eq files input, ?_,
    loadAll_memory files input, loadAll_append files input⟩
  · have hok (s : Source) : (s.documents files input).isOk ↔
        ∃ r ds, s.read files input = .ok r ∧ Document.parseStream r.1 = .ok ds := by
      rw [exists_comm]
      simp only [← documents_eq_ok_iff]
      cases s.documents files input <;> simp [Except.isOk, Except.toBool]
    simp only [loadAll_eq_ok_iff, hok, exists_and_left, exists_eq', and_true]
  · intro ds rest hloaded
    exact Prod.ext_iff.1 (loadAll_eq_ok_iff.1 hloaded).2
  · intro name cause
    rfl

/-- Standard input before and after a directory: only the first of its places counts. -/
theorem loadAll_around_directory :
    let files : FileTree :=
      ⟨.directory [("d", .directory [("x.yaml", .file "kind: X".toUTF8.toList)])]⟩
    let input := "kind: I".toUTF8.toList
    let sources := [.standardInput, .file "d/x.yaml", .standardInput]
    ofPaths files false ["-", "d", "-"] = .ok sources ∧
      ∃ ds, loadAll files input sources = .ok (ds, []) ∧ ds.map Document.kind = ["I", "X"] := by
  intro files input sources
  have hsources : ofPaths files false ["-", "d", "-"] = .ok sources := by decide +kernel
  have hinput : read files input .standardInput = .ok ("kind: I", []) := by decide +kernel
  have hfile : read files input (.file "d/x.yaml") = .ok ("kind: X", input) := by decide +kernel
  have hkindI : (Document.parseStream "kind: I").map (·.map Document.kind) = .ok ["I"] := by
    decide +kernel
  have hkindX : (Document.parseStream "kind: X").map (·.map Document.kind) = .ok ["X"] := by
    decide +kernel
  obtain ⟨is, his, hi⟩ := Except.map_eq_ok_iff.1 hkindI
  obtain ⟨xs, hxs, hx⟩ := Except.map_eq_ok_iff.1 hkindX
  obtain ⟨-, hloads, hloaded, -⟩ := loadAll_ofPaths hsources input
  have hreadable : ∀ s ∈ sources,
      ∃ r ds, s.read files input = .ok r ∧ Document.parseStream r.1 = .ok ds := by
    simp only [sources, List.forall_mem_cons]
    exact ⟨⟨_, is, hinput, his⟩, ⟨_, xs, hfile, hxs⟩, ⟨_, is, hinput, his⟩, List.forall_mem_nil _⟩
  obtain ⟨⟨ds, rest⟩, h⟩ := hloads.2 hreadable
  obtain ⟨rfl, hrest⟩ := hloaded ds rest h
  rw [if_pos List.mem_cons_self] at hrest
  subst hrest
  have hcontributing : contributing sources = [.standardInput, .file "d/x.yaml"] := rfl
  have hdocumentsI := (documents_eq_ok_iff files input).2 ⟨_, hinput, his⟩
  have hdocumentsX := (documents_eq_ok_iff files input).2 ⟨_, hfile, hxs⟩
  refine ⟨hsources, _, h, ?_⟩
  simp [hcontributing, hdocumentsI, hdocumentsX, Except.toOption, hi, hx]

end Source

end ManifestBundle
