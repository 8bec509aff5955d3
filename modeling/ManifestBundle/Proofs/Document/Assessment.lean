import ManifestBundle.Document.Stream
import ManifestBundle.Proofs.Equality
import ManifestBundle.Proofs.Except
import Mathlib.Data.List.Basic

/-!
# What a stream of documents is refused for

Each document of a stream is assessed on its own (`Assessment.ofNode`). The stream is read
if all of them are accepted, and then as the documents that are not empty. Otherwise it is
refused for the first document that cannot be read or converted, or if there is none, for
the first that is no manifest.

Reading counts all documents, so what it finds is reported with the position in the stream.
The manifests are counted without the empty documents: what is found there is reported with
the position less the number of empty documents before it, and so for another document
wherever there is one (`parseStream_after_empty`).
-/

namespace ManifestBundle

/-- What a document of a stream comes to on its own. -/
inductive Assessment where
  /-- It is no well-formed document. -/
  | unreadable
  /-- It has a collection as a key. -/
  | unsupported
  /-- It is null. -/
  | empty
  /-- It is a malformed manifest. -/
  | malformed (cause : DocumentError)
  /-- It is the manifest of a document. -/
  | sound (d : Document)

namespace Assessment

/-- The assessment of a data tree as a manifest. -/
def ofValue (v : Value) : Assessment :=
  match Document.ofValue v with
  | .error cause => .malformed cause
  | .ok d => .sound d

/-- The assessment of a document; `none` stands for one that is not well formed. -/
def ofNode : Option Yaml.Node → Assessment
  | none => .unreadable
  | some n =>
    if n.isNull then .empty
    else match Value.ofNode? n with
      | none => .unsupported
      | some v => ofValue v

/-- The documents of a stream, assessed one by one. -/
def ofText (text : String) : List Assessment :=
  (Yaml.nodes text).map ofNode

/-- The document can be read and converted to a data tree. -/
def isConverted : Assessment → Bool
  | unreadable | unsupported => false
  | empty | malformed _ | sound _ => true

/-- The document is null. -/
def isEmpty : Assessment → Bool
  | empty => true
  | _ => false

/-- The document is a malformed manifest. -/
def isMalformed : Assessment → Bool
  | malformed _ => true
  | _ => false

/-- The document that the manifest describes. -/
def document? : Assessment → Option Document
  | sound d => some d
  | _ => none

/-- `before` are the documents of the stream in front of the first one that is `a`, and all
    of them pass. -/
def IsFirst (as : List Assessment) (pass : Assessment → Bool) (before : List Assessment)
    (a : Assessment) : Prop :=
  (∃ after, as = before ++ a :: after) ∧ ∀ b ∈ before, pass b

/-! ## Reading in two passes -/

/-- What the first pass finds: it leaves the manifests. -/
def reading : Assessment → Except (Nat → StreamError) (Option Assessment)
  | unreadable => .error .unreadable
  | unsupported => .error .unsupported
  | empty => .ok none
  | a => .ok (some a)

/-- What the second pass finds: it leaves the documents. -/
def describing : Assessment → Except (Nat → StreamError) (Option Document)
  | malformed cause => .error (.invalidManifest · cause)
  | a => .ok a.document?

theorem reading_ofValue (v : Value) : reading (ofValue v) = .ok (some (ofValue v)) := by
  rw [ofValue]
  cases Document.ofValue v <;> rfl

/-- Nodes are converted one by one up to the first that cannot be, counting all of them. -/
theorem ofNodes_eq_collect (position : Nat) (ns : List (Option Yaml.Node)) :
    (Value.ofNodes position ns).map (List.map ofValue) =
      Except.collect reading position (ns.map ofNode) := by
  induction ns generalizing position with
  | nil => rfl
  | cons n ns ih =>
    rw [List.map_cons, Except.collect, ← ih]
    cases n with
    | none => rfl
    | some n =>
      rw [Value.ofNodes, ofNode]
      cases n.isNull with
      | true => cases Value.ofNodes (position + 1) ns <;> rfl
      | false =>
        cases Value.ofNode? n with
        | none => rfl
        | some v =>
          simp only [Bool.false_eq_true, if_false, reading_ofValue]
          cases Value.ofNodes (position + 1) ns <;> rfl

/-- Trees are read as manifests one by one up to the first that is none, counting only them. -/
theorem ofValues_eq_collect (position : Nat) (vs : List Value) :
    Document.ofValues position vs = Except.collect describing position (vs.map ofValue) := by
  induction vs generalizing position with
  | nil => rfl
  | cons v vs ih =>
    rw [Document.ofValues, List.map_cons, Except.collect, ih, ofValue]
    cases Document.ofValue v <;> rfl

/-- A stream is converted first, and what is left of it is read as manifests. -/
theorem parseStream_eq_collect (text : String) :
    Document.parseStream text =
      (Except.collect reading 1 (ofText text)).bind (Except.collect describing 1) := by
  rw [ofText, ← ofNodes_eq_collect, Document.parseStream, Value.parseStream]
  cases Value.ofNodes 1 (Yaml.nodes text) with
  | error e => rfl
  | ok vs => exact ofValues_eq_collect 1 vs

/-! ## What the passes find -/

variable {as : List Assessment} {position : Nat}

theorem isOk_reading (a : Assessment) : (reading a).isOk = a.isConverted := by
  cases a <;> rfl

theorem isOk_describing (a : Assessment) : (describing a).isOk = !a.isMalformed := by
  cases a <;> rfl

/-- The first pass succeeds if every document can be converted, and skips those that are
    empty. -/
theorem reading_eq_ok_iff {ms : List Assessment} :
    Except.collect reading position as = .ok ms ↔
      (∀ a ∈ as, a.isConverted) ∧ as.filter (!·.isEmpty) = ms := by
  simp only [Except.collect_eq_ok_iff, isOk_reading]
  refine and_congr_right fun hall => ?_
  have hskip : (as.filterMap fun a => (reading a).toOption.join) = as.filter (!·.isEmpty) := by
    rw [← List.filterMap_eq_filter]
    refine List.filterMap_congr fun a ha => ?_
    have hconverted := hall a ha
    cases a with
    | unreadable | unsupported => nomatch hconverted
    | empty | malformed | sound => rfl
  rw [hskip]

/-- The first pass fails at the first document that cannot be read or converted. -/
theorem reading_eq_error_iff {e : StreamError} :
    Except.collect reading position as = .error e ↔
      ∃ before, IsFirst as isConverted before .unreadable ∧
          .unreadable (position + before.length) = e ∨
        IsFirst as isConverted before .unsupported ∧
          .unsupported (position + before.length) = e := by
  simp only [Except.collect_eq_error_iff, isOk_reading]
  constructor
  · rintro ⟨before, a, after, fault, rfl, hbefore, ha, rfl⟩
    refine ⟨before, ?_⟩
    cases a with
    | unreadable =>
      cases ha
      exact .inl ⟨⟨⟨after, rfl⟩, hbefore⟩, rfl⟩
    | unsupported =>
      cases ha
      exact .inr ⟨⟨⟨after, rfl⟩, hbefore⟩, rfl⟩
    | empty | malformed | sound => nomatch ha
  · rintro ⟨before, ⟨⟨⟨after, rfl⟩, hbefore⟩, rfl⟩ | ⟨⟨⟨after, rfl⟩, hbefore⟩, rfl⟩⟩
    · exact ⟨before, _, after, _, rfl, hbefore, rfl, rfl⟩
    · exact ⟨before, _, after, _, rfl, hbefore, rfl, rfl⟩

/-- The second pass succeeds if no manifest is malformed. -/
theorem describing_eq_ok_iff {ds : List Document} :
    Except.collect describing position as = .ok ds ↔
      (∀ a ∈ as, a.isMalformed = false) ∧ as.filterMap document? = ds := by
  simp only [Except.collect_eq_ok_iff, isOk_describing, Bool.not_eq_true']
  refine and_congr_right fun hall => ?_
  have hdocuments : (as.filterMap fun a => (describing a).toOption.join) =
      as.filterMap document? := by
    refine List.filterMap_congr fun a ha => ?_
    have hsound := hall a ha
    cases a with
    | malformed => nomatch hsound
    | unreadable | unsupported | empty | sound => rfl
  rw [hdocuments]

/-- The second pass fails at the first malformed manifest. -/
theorem describing_eq_error_iff {e : StreamError} :
    Except.collect describing position as = .error e ↔
      ∃ before cause, IsFirst as (!·.isMalformed) before (.malformed cause) ∧
        .invalidManifest (position + before.length) cause = e := by
  simp only [Except.collect_eq_error_iff, isOk_describing]
  constructor
  · rintro ⟨before, a, after, fault, rfl, hbefore, ha, rfl⟩
    cases a with
    | malformed cause =>
      cases ha
      exact ⟨before, cause, ⟨⟨after, rfl⟩, hbefore⟩, rfl⟩
    | unreadable | unsupported | empty | sound => nomatch ha
  · rintro ⟨before, cause, ⟨⟨after, rfl⟩, hbefore⟩, rfl⟩
    exact ⟨before, _, after, _, rfl, hbefore, rfl, rfl⟩

theorem isMalformed_of_isEmpty {a : Assessment} (h : a.isEmpty) : a.isMalformed = false := by
  cases a with
  | empty => rfl
  | unreadable | unsupported | malformed | sound => nomatch h

/-- No manifest is skipped with the empty documents. -/
theorem forall_mem_filter_iff :
    (∀ a ∈ as.filter (!·.isEmpty), a.isMalformed = false) ↔ ∀ a ∈ as, a.isMalformed = false := by
  refine ⟨fun h a ha => ?_, fun h a ha => h a (List.mem_filter.1 ha).1⟩
  by_cases hempty : a.isEmpty
  · exact isMalformed_of_isEmpty hempty
  · exact h a (List.mem_filter.2 ⟨ha, by simpa using hempty⟩)

theorem filterMap_document?_filter :
    (as.filter (!·.isEmpty)).filterMap document? = as.filterMap document? := by
  rw [List.filterMap_filter]
  refine List.filterMap_congr fun a _ => ?_
  cases a <;> rfl

/-- Skipping the empty documents keeps the first malformed manifest. -/
theorem isFirst_filter_iff {before : List Assessment} {cause : DocumentError} :
    IsFirst (as.filter (!·.isEmpty)) (!·.isMalformed) before (.malformed cause) ↔
      ∃ all, IsFirst as (!·.isMalformed) all (.malformed cause) ∧
        all.filter (!·.isEmpty) = before := by
  constructor
  · rintro ⟨⟨after, has⟩, hbefore⟩
    obtain ⟨front, rest, rfl, rfl, hrest⟩ := List.filter_eq_append_iff.1 has
    obtain ⟨skipped, behind, rfl, hskipped, -, -⟩ := List.filter_eq_cons_iff.1 hrest
    have hfront : (front ++ skipped).filter (!·.isEmpty) = front.filter (!·.isEmpty) := by
      rw [List.filter_append, List.filter_eq_nil_iff.2 hskipped, List.append_nil]
    simp only [Bool.not_eq_true'] at hbefore
    rw [← hfront, forall_mem_filter_iff] at hbefore
    exact ⟨front ++ skipped, ⟨⟨behind, by simp⟩, by simpa using hbefore⟩, hfront⟩
  · rintro ⟨all, ⟨⟨after, rfl⟩, hall⟩, rfl⟩
    refine ⟨⟨after.filter (!·.isEmpty), ?_⟩, fun b hb => hall b (List.mem_filter.1 hb).1⟩
    rw [List.filter_append, List.filter_cons_of_pos rfl]

/-! ## Streams -/

variable {text : String} {k : Nat} {ds : List Document} {cause : DocumentError}

/-- A stream is accepted if every node is converted and every tree is a manifest. -/
theorem parseStream_eq_ok_iff :
    Document.parseStream text = .ok ds ↔
      (∀ a ∈ ofText text, a.isConverted ∧ a.isMalformed = false) ∧
        (ofText text).filterMap document? = ds := by
  simp only [parseStream_eq_collect, Except.bind_eq_ok_iff, reading_eq_ok_iff,
    describing_eq_ok_iff, and_assoc, exists_and_left, exists_eq_left', forall_mem_filter_iff,
    filterMap_document?_filter, forall_and]

/-- The second pass does not find what the first one looks for. -/
theorem describing_ne_of_reading {ms : List Assessment} {e : StreamError}
    (he : e = .unreadable k ∨ e = .unsupported k) :
    Except.collect describing position ms ≠ .error e := by
  rw [Ne, describing_eq_error_iff]
  rintro ⟨before, cause, -, rfl⟩
  rcases he with he | he <;> nomatch he

theorem parseStream_eq_unreadable_iff :
    Document.parseStream text = .error (.unreadable k) ↔
      ∃ before, IsFirst (ofText text) isConverted before .unreadable ∧ k = before.length + 1 := by
  rw [parseStream_eq_collect, Except.bind_eq_error_iff, reading_eq_error_iff]
  constructor
  · rintro (⟨before, ⟨hfirst, hk⟩ | ⟨-, hk⟩⟩ | ⟨ms, -, hms⟩)
    · cases hk
      exact ⟨before, hfirst, Nat.add_comm 1 _⟩
    · nomatch hk
    · exact absurd hms (describing_ne_of_reading (.inl rfl))
  · rintro ⟨before, hfirst, rfl⟩
    exact .inl ⟨before, .inl ⟨hfirst, by rw [Nat.add_comm]⟩⟩

theorem parseStream_eq_unsupported_iff :
    Document.parseStream text = .error (.unsupported k) ↔
      ∃ before, IsFirst (ofText text) isConverted before .unsupported ∧ k = before.length + 1 := by
  rw [parseStream_eq_collect, Except.bind_eq_error_iff, reading_eq_error_iff]
  constructor
  · rintro (⟨before, ⟨-, hk⟩ | ⟨hfirst, hk⟩⟩ | ⟨ms, -, hms⟩)
    · nomatch hk
    · cases hk
      exact ⟨before, hfirst, Nat.add_comm 1 _⟩
    · exact absurd hms (describing_ne_of_reading (.inr rfl))
  · rintro ⟨before, hfirst, rfl⟩
    exact .inl ⟨before, .inr ⟨hfirst, by rw [Nat.add_comm]⟩⟩

/-- Malformed manifests are told only if all nodes are converted, at a position that leaves out
    empty documents. -/
theorem parseStream_eq_invalidManifest_iff :
    Document.parseStream text = .error (.invalidManifest k cause) ↔
      (∀ a ∈ ofText text, a.isConverted) ∧
        ∃ before, IsFirst (ofText text) (!·.isMalformed) before (.malformed cause) ∧
          k + before.countP isEmpty = before.length + 1 := by
  have hcount (before : List Assessment) :
      1 + (before.filter (!·.isEmpty)).length = k ↔
        k + before.countP isEmpty = before.length + 1 := by
    have hlength : before.length = _ := List.length_eq_countP_add_countP isEmpty
    simp only [Bool.not_eq_true, Bool.decide_eq_false] at hlength
    rw [← List.countP_eq_length_filter]
    omega
  rw [parseStream_eq_collect, Except.bind_eq_error_iff]
  constructor
  · rintro (herror | ⟨ms, hms, herror⟩)
    · obtain ⟨before, ⟨-, h⟩ | ⟨-, h⟩⟩ := reading_eq_error_iff.1 herror <;> nomatch h
    · obtain ⟨hall, rfl⟩ := reading_eq_ok_iff.1 hms
      obtain ⟨before, cause, hskipped, hk⟩ := describing_eq_error_iff.1 herror
      cases hk
      obtain ⟨all, hfirst, rfl⟩ := isFirst_filter_iff.1 hskipped
      exact ⟨hall, all, hfirst, (hcount all).1 rfl⟩
  · rintro ⟨hall, before, hfirst, hk⟩
    refine .inr ⟨_, reading_eq_ok_iff.2 ⟨hall, rfl⟩, describing_eq_error_iff.2 ?_⟩
    exact ⟨_, cause, isFirst_filter_iff.2 ⟨before, hfirst, rfl⟩, by rw [(hcount before).2 hk]⟩

/-- A stream is read if every document of it can be read, converted and, unless it is null,
    understood as a manifest, and then as the documents that are not null, in order. It is
    refused for the first document that cannot be read or converted, with its position, or
    if there is none, for the first malformed manifest, with its position less the number
    of null documents before it. -/
theorem parseStream_eq_iff (text : String) :
    (∀ ds, Document.parseStream text = .ok ds ↔
      (∀ a ∈ ofText text, a.isConverted ∧ a.isMalformed = false) ∧
        (ofText text).filterMap document? = ds) ∧
      (∀ k, Document.parseStream text = .error (.unreadable k) ↔
        ∃ before, IsFirst (ofText text) isConverted before .unreadable ∧
          k = before.length + 1) ∧
      (∀ k, Document.parseStream text = .error (.unsupported k) ↔
        ∃ before, IsFirst (ofText text) isConverted before .unsupported ∧
          k = before.length + 1) ∧
      ∀ k cause, Document.parseStream text = .error (.invalidManifest k cause) ↔
        (∀ a ∈ ofText text, a.isConverted) ∧
          ∃ before, IsFirst (ofText text) (!·.isMalformed) before (.malformed cause) ∧
            k + before.countP isEmpty = before.length + 1 :=
  ⟨fun _ => parseStream_eq_ok_iff, fun _ => parseStream_eq_unreadable_iff,
    fun _ => parseStream_eq_unsupported_iff, fun _ _ => parseStream_eq_invalidManifest_iff⟩

/-- The second of two documents is no manifest, but it is reported as the first: the empty
    document before it is not counted. -/
theorem parseStream_after_empty :
    Yaml.nodes "---\n---\njust a string\n" = [some .null, some (.text "just a string")] ∧
      Document.parseStream "---\n---\njust a string\n" =
        .error (.invalidManifest 1 (.malformed "" (.rootNotMap "string"))) ∧
      ¬ ∀ text k cause, Document.parseStream text = .error (.invalidManifest k cause) →
        ∃ before, IsFirst (ofText text) (!·.isMalformed) before (.malformed cause) ∧
          k = before.length + 1 := by
  have hnodes : Yaml.nodes "---\n---\njust a string\n" =
      [some .null, some (.text "just a string")] := by decide +kernel
  have herror : Document.parseStream "---\n---\njust a string\n" =
      .error (.invalidManifest 1 (.malformed "" (.rootNotMap "string"))) := by decide +kernel
  refine ⟨hnodes, herror, fun hposition => ?_⟩
  obtain ⟨before, ⟨⟨after, has⟩, -⟩, hk⟩ := hposition _ _ _ herror
  obtain rfl : before = [] := List.length_eq_zero_iff.1 (Nat.succ.inj hk).symm
  rw [ofText, hnodes] at has
  cases (List.cons.inj has).1

end Assessment

end ManifestBundle
