import ManifestBundle.Document.Lookup
import ManifestBundle.Proofs.Document.Stream
import ManifestBundle.Proofs.Equality
import ManifestBundle.Proofs.KeyValues.Lookup

/-!
# Manifests and their defects

A manifest describes a document exactly if it has the right shape (`IsManifest`), and otherwise
the error names the first of its defects (`FirstDefect`). The identity of the document is read
from the tree once and kept, while look-ups by key path go to the tree itself; the two ways agree
(`ofValue_identity_agrees`).

A part of a tree that is absent counts as null (`Value.part`). A map holds each key once, which
its list of entries does not say (`Value.HasDistinctKeys`). This is true of every tree that has
been read (`Value.hasDistinctKeys_of_parseStream`) and counts for labels and annotations only: of
a key that came twice, they would keep the last value and a look-up would find the first.
-/

namespace ManifestBundle

namespace Value

variable {v : Value}

/-! ## Parts of a tree -/

/-- What stands at a key; null if nothing does. -/
def part (v : Value) (key : String) : Value :=
  (v.get? key).getD .null

theorem resolve?_key (v : Value) (k : String) : v.resolve? [.key k] = v.get? k :=
  Option.bind_fun_some (v.get? k)

/-- Null leads nowhere, so a part that is absent leads nowhere either. -/
theorem resolve?_key_cons (v : Value) (key : String) (s : Segment) (rest : List Segment) :
    v.resolve? (.key key :: s :: rest) = (v.part key).resolve? (s :: rest) := by
  rw [resolve?, step?, part]
  cases v.get? key with
  | some w => rfl
  | none => cases s <;> rfl

/-! ## Distinct keys -/

/-- Every map in the tree holds each key once. -/
inductive HasDistinctKeys : Value → Prop
  | null : HasDistinctKeys .null
  | bool (b : Bool) : HasDistinctKeys (.bool b)
  | number (n : Number) : HasDistinctKeys (.number n)
  | text (s : String) : HasDistinctKeys (.text s)
  | sequence {items : List Value} (hitems : ∀ v ∈ items, HasDistinctKeys v) :
      HasDistinctKeys (.sequence items)
  | map {entries : List (String × Value)} (hkeys : (entries.map Prod.fst).Nodup)
      (hvalues : ∀ e ∈ entries, HasDistinctKeys e.2) : HasDistinctKeys (.map entries)

/-- The parts of a tree with distinct keys have distinct keys. -/
theorem HasDistinctKeys.part (h : v.HasDistinctKeys) (key : String) :
    (v.part key).HasDistinctKeys := by
  rw [Value.part]
  cases hw : v.get? key with
  | none => exact .null
  | some w =>
    cases h with
    | map hkeys hvalues => exact hvalues _ ((List.lookup_eq_some_iff_mem hkeys).1 hw)
    | _ => cases hw

theorem hasDistinctKeys_of_not_isContainer (h : v.isContainer = false) : v.HasDistinctKeys := by
  cases v with
  | null => exact .null
  | bool b => exact .bool b
  | number n => exact .number n
  | text s => exact .text s
  | sequence items => cases h
  | map entries => cases h

/-- A tree that can be read back has distinct keys. -/
theorem IsReadable.hasDistinctKeys {depth : Nat} (h : v.IsReadable depth) :
    v.HasDistinctKeys := by
  induction depth generalizing v with
  | zero =>
    cases v with
    | sequence items => exact absurd h id
    | map entries => exact absurd h id
    | _ => exact hasDistinctKeys_of_not_isContainer rfl
  | succ depth ih =>
    cases v with
    | sequence items => exact .sequence fun v hv => ih (h v hv)
    | map entries => exact .map h.1 fun e he => ih (h.2 e he)
    | _ => exact hasDistinctKeys_of_not_isContainer rfl

/-- Data trees that have been read hold their keys once. -/
theorem hasDistinctKeys_of_parseStream {text : String} {vs : List Value}
    (h : parseStream text = .ok vs) : ∀ v ∈ vs, v.HasDistinctKeys :=
  fun v hv => (isReadable_of_parseStream h v hv).hasDistinctKeys

/-! ## Maps of values -/

/-- The node is a text. -/
def IsText (v : Value) : Prop :=
  ∃ s, v = .text s

/-- The node is null, or a map of values as told. -/
inductive IsMapOf (p : Value → Prop) : Value → Prop
  | null : IsMapOf p .null
  | map {entries : List (String × Value)} (hvalues : ∀ e ∈ entries, p e.2) :
    IsMapOf p (.map entries)

/-- A map of anything is a map, or nothing. -/
theorem isMapOf_any_iff : v.IsMapOf (fun _ => True) ↔ (v.isMap || v.isNull) = true := by
  constructor
  · rintro (_ | _) <;> rfl
  · intro h
    cases v with
    | null => exact .null
    | map entries => exact .map fun _ _ => trivial
    | _ => cases h

end Value

namespace Document

variable {v w : Value} {field name : String} {e : DocumentError} {d : Document}

/-! ## The shape of a manifest -/

/-- The tree is a map; its metadata, and the labels and annotations in them, are maps if they
    are there, the latter of texts. -/
structure IsManifest (v : Value) : Prop where
  root : v.isMap
  metadata : (v.part "metadata").IsMapOf fun _ => True
  labels : ((v.part "metadata").part "labels").IsMapOf Value.IsText
  annotations : ((v.part "metadata").part "annotations").IsMapOf Value.IsText

/-- The first defect of a field of the metadata that should be a map of texts. -/
inductive FieldDefect (field : String) : Value → Defect → Prop
  | notMap {w : Value} (h : ¬ w.IsMapOf fun _ => True) :
    FieldDefect field w (.fieldNotMap field w.kindName)
  | entryNotText {before after : List (String × Value)} {key : String} {w : Value}
      (hbefore : ∀ e ∈ before, e.2.IsText) (h : ¬ w.IsText) :
    FieldDefect field (.map (before ++ (key, w) :: after)) (.entryNotText field key w.kindName)

/-- The first defect of a tree, from the root to the annotations. -/
inductive FirstDefect (v : Value) : Defect → Prop
  | root (h : ¬ v.isMap) : FirstDefect v (.rootNotMap v.kindName)
  | metadata (hroot : v.isMap) (h : ¬ (v.part "metadata").IsMapOf fun _ => True) :
    FirstDefect v (.metadataNotMap (v.part "metadata").kindName)
  | labels {defect : Defect} (hroot : v.isMap)
      (hmetadata : (v.part "metadata").IsMapOf fun _ => True)
      (h : FieldDefect "labels" ((v.part "metadata").part "labels") defect) : FirstDefect v defect
  | annotations {defect : Defect} (hroot : v.isMap)
      (hmetadata : (v.part "metadata").IsMapOf fun _ => True)
      (hlabels : ((v.part "metadata").part "labels").IsMapOf Value.IsText)
      (h : FieldDefect "annotations" ((v.part "metadata").part "annotations") defect) :
    FirstDefect v defect

/-! ## Maps of texts -/

/-- The text in one entry of a field. -/
def entryText (field name : String) (e : String × Value) :
    Except DocumentError (String × String) :=
  match e.2 with
  | .text s => .ok (e.1, s)
  | w => .error (.malformed name (.entryNotText field e.1 w.kindName))

/-- An entry is taken exactly if it is a text, and as it is. -/
theorem entryText_eq_ok_iff {e : String × Value} {t : String × String} :
    entryText field name e = .ok t ↔ e = (t.1, .text t.2) := by
  obtain ⟨key, w⟩ := e
  obtain ⟨key', s⟩ := t
  cases w <;> simp [entryText]

theorem isOk_entryText {e : String × Value} : (entryText field name e).isOk ↔ e.2.IsText := by
  obtain ⟨key, w⟩ := e
  cases w <;> simp [entryText, Value.IsText, Except.isOk, Except.toBool]

/-- An entry that is no text is named, and what it is. -/
theorem entryText_of_not_isText {e : String × Value} (h : ¬ e.2.IsText) :
    entryText field name e = .error (.malformed name (.entryNotText field e.1 e.2.kindName)) := by
  obtain ⟨key, w⟩ := e
  cases w with
  | text s => exact absurd ⟨s, rfl⟩ h
  | _ => rfl

/-- The texts in a field of the metadata. -/
def texts (field name : String) : Value → Except DocumentError KeyValues
  | .null => .ok .empty
  | .map entries => (entries.mapM (entryText field name)).map .ofEntries
  | w => .error (.malformed name (.fieldNotMap field w.kindName))

/-- A field of texts is read from its part of the metadata. -/
theorem textField_eq (metadata : Value) (field name : String) :
    textField metadata field name = texts field name (metadata.part field) := by
  rw [textField, Value.part]
  cases metadata.get? field with
  | none => rfl
  | some w =>
    cases w with
    | map entries => exact Except.bind_ok_eq_map _ _
    | _ => rfl

/-- A field is accepted exactly if it is a map of texts, or nothing. -/
theorem exists_texts_iff : (∃ m, texts field name w = .ok m) ↔ w.IsMapOf Value.IsText := by
  rw [Except.exists_eq_ok_iff]
  cases w with
  | null => exact iff_of_true rfl .null
  | map entries =>
    have hmap : (texts field name (.map entries)).isOk =
        (entries.mapM (entryText field name)).isOk := by
      rw [texts]
      cases entries.mapM (entryText field name) <;> rfl
    rw [hmap, Except.isOk_mapM]
    simp only [isOk_entryText]
    refine ⟨.map, fun h => ?_⟩
    cases h with
    | map hvalues => exact hvalues
  | _ => refine iff_of_false (fun h => ?_) (fun h => ?_) <;> cases h

/-- The first entry that is at fault is the first that is not a text. -/
theorem find?_entryText_iff {entries : List (String × Value)} {f : String × Value} :
    entries.find? (fun e => !(entryText field name e).isOk) = some f ↔
      ¬ f.2.IsText ∧ ∃ before after, entries = before ++ f :: after ∧ ∀ e ∈ before, e.2.IsText := by
  rw [List.find?_eq_some_iff_append]
  simp only [Bool.not_eq_true', Bool.not_not, ← Bool.not_eq_true, isOk_entryText]

/-- A field is refused for its first defect, in the name of the document. -/
theorem texts_eq_error_iff : texts field name w = .error e ↔
    ∃ defect, FieldDefect field w defect ∧ e = .malformed name defect := by
  constructor
  · intro h
    cases w with
    | null => cases h
    | map entries =>
      obtain ⟨⟨key, w⟩, hfind, hentry⟩ := Except.mapM_eq_error_iff.1 (Except.map_eq_error_iff.1 h)
      obtain ⟨hw, before, after, rfl, hbefore⟩ := find?_entryText_iff.1 hfind
      rw [entryText_of_not_isText hw] at hentry
      exact ⟨_, .entryNotText hbefore hw, (Except.error.inj hentry).symm⟩
    | _ => exact ⟨_, .notMap (fun h => by cases h), (Except.error.inj h).symm⟩
  · rintro ⟨_, ⟨h⟩ | ⟨hbefore, h⟩, rfl⟩
    · cases w with
      | null => exact absurd .null h
      | map entries => exact absurd (.map fun _ _ => trivial) h
      | _ => rfl
    · refine Except.map_eq_error_iff.2 (Except.mapM_eq_error_iff.2 ?_)
      exact ⟨_, find?_entryText_iff.2 ⟨h, _, _, rfl, hbefore⟩, entryText_of_not_isText h⟩

/-- A text that is kept is the one that stands in the tree. -/
theorem get?_texts {m : KeyValues} (h : texts field name w = .ok m) (hkeys : w.HasDistinctKeys)
    {k x : String} : m.get? k = some x ↔ w.get? k = some (.text x) := by
  cases w with
  | null =>
    rw [← Except.ok.inj h]
    exact iff_of_false (Option.some_ne_none x).symm (Option.some_ne_none _).symm
  | map entries =>
    obtain ⟨es, hes, rfl⟩ := Except.map_eq_ok_iff.1 h
    obtain rfl := (Except.mapM_eq_ok_iff_eq_map entryText_eq_ok_iff).1 hes
    cases hkeys with
    | map hnodup _ =>
      have hes : (es.map Prod.fst).Nodup := by
        rw [List.map_map] at hnodup
        exact hnodup
      rw [KeyValues.get?_ofEntries_of_nodup hes, Value.get?, List.lookup_eq_some_iff_mem hes,
        List.lookup_eq_some_iff_mem hnodup, List.mem_map]
      constructor
      · intro hmem
        exact ⟨_, hmem, rfl⟩
      · rintro ⟨⟨k', x'⟩, hmem, heq⟩
        cases heq
        exact hmem
  | _ => cases h

/-! ## Documents -/

/-- A look-up finds the text that the path leads to. -/
theorem lookupText_eq_ok_iff {path : KeyPath} {x : String} :
    d.lookupText path = .ok x ↔ d.data.resolve? path.segments = some (.text x) := by
  rw [lookupText, lookupAs]
  cases d.data.resolve? path.segments with
  | none => exact iff_of_false nofun nofun
  | some w => cases w <;> simp [Value.text?]

theorem fieldText_of_get? {x : String} (h : v.get? field = some (.text x)) :
    fieldText v field = x := by
  rw [fieldText, h]
  rfl

/-- The document that a manifest describes, with the labels and annotations in it. -/
def described (v : Value) (labels annotations : KeyValues) : Document where
  group := (splitApiVersion (fieldText v "apiVersion")).1
  version := (splitApiVersion (fieldText v "apiVersion")).2
  kind := fieldText v "kind"
  name := fieldText (v.part "metadata") "name"
  namespaceName := fieldText (v.part "metadata") "namespace"
  labels := labels
  annotations := annotations
  data := v

/-- What is no map is refused first. -/
theorem ofValue_of_not_isMap (h : ¬ v.isMap) :
    ofValue v =
      .error (.malformed (fieldText (v.part "metadata") "name") (.rootNotMap v.kindName)) := by
  cases v with
  | map entries => exact absurd rfl h
  | _ => rfl

theorem ofValue_of_metadata (hroot : v.isMap) (h : ¬ (v.part "metadata").IsMapOf fun _ => True) :
    ofValue v = .error (.malformed (fieldText (v.part "metadata") "name")
      (.metadataNotMap (v.part "metadata").kindName)) := by
  rw [Value.isMapOf_any_iff, Value.part, Bool.not_eq_true] at h
  simp only [ofValue, hroot, h]
  rfl

/-- Of a map with metadata the labels are read first, and then the annotations. -/
theorem ofValue_eq (hroot : v.isMap) (h : (v.part "metadata").IsMapOf fun _ => True) :
    ofValue v =
      (texts "labels" (fieldText (v.part "metadata") "name")
          ((v.part "metadata").part "labels")).bind fun labels =>
        (texts "annotations" (fieldText (v.part "metadata") "name")
            ((v.part "metadata").part "annotations")).bind fun annotations =>
          .ok (described v labels annotations) := by
  rw [Value.isMapOf_any_iff] at h
  simp only [← textField_eq, described]
  unfold Value.part at h ⊢
  simp only [ofValue, hroot, h]
  rfl

theorem ofValue_eq_ok_iff : ofValue v = .ok d ↔
    v.isMap ∧ ((v.part "metadata").IsMapOf fun _ => True) ∧ ∃ labels,
      texts "labels" (fieldText (v.part "metadata") "name")
          ((v.part "metadata").part "labels") = .ok labels ∧ ∃ annotations,
        texts "annotations" (fieldText (v.part "metadata") "name")
            ((v.part "metadata").part "annotations") = .ok annotations ∧
          described v labels annotations = d := by
  by_cases hroot : v.isMap
  · rw [and_iff_right hroot]
    by_cases hmetadata : (v.part "metadata").IsMapOf fun _ => True
    · rw [and_iff_right hmetadata, ofValue_eq hroot hmetadata]
      simp only [Except.bind_eq_ok_iff, Except.ok.injEq]
    · rw [ofValue_of_metadata hroot hmetadata]
      exact iff_of_false nofun fun h => hmetadata h.1
  · rw [ofValue_of_not_isMap hroot]
    exact iff_of_false nofun fun h => hroot h.1

/-- A document is accepted exactly if it is a manifest. -/
theorem exists_ofValue_iff : (∃ d, ofValue v = .ok d) ↔ IsManifest v := by
  simp only [ofValue_eq_ok_iff]
  constructor
  · rintro ⟨d, hroot, hmetadata, labels, hlabels, annotations, hannotations, -⟩
    exact ⟨hroot, hmetadata, exists_texts_iff.1 ⟨_, hlabels⟩, exists_texts_iff.1 ⟨_, hannotations⟩⟩
  · rintro ⟨hroot, hmetadata, hlabels, hannotations⟩
    obtain ⟨labels, hlabels⟩ := exists_texts_iff.2 hlabels
    obtain ⟨annotations, hannotations⟩ := exists_texts_iff.2 hannotations
    exact ⟨_, hroot, hmetadata, labels, hlabels, annotations, hannotations, rfl⟩

/-- The error names the first defect. -/
theorem ofValue_eq_error_iff : ofValue v = .error e ↔
    ∃ defect, FirstDefect v defect ∧
      e = .malformed (fieldText (v.part "metadata") "name") defect := by
  constructor
  · intro h
    by_cases hroot : v.isMap
    · by_cases hmetadata : (v.part "metadata").IsMapOf fun _ => True
      · rw [ofValue_eq hroot hmetadata] at h
        rcases Except.bind_eq_error_iff.1 h with h | ⟨labels, hlabels, h⟩
        · obtain ⟨defect, hdefect, rfl⟩ := texts_eq_error_iff.1 h
          exact ⟨defect, .labels hroot hmetadata hdefect, rfl⟩
        · rcases Except.bind_eq_error_iff.1 h with h | ⟨_, -, h⟩
          · obtain ⟨defect, hdefect, rfl⟩ := texts_eq_error_iff.1 h
            have hlabels := exists_texts_iff.1 ⟨labels, hlabels⟩
            exact ⟨defect, .annotations hroot hmetadata hlabels hdefect, rfl⟩
          · cases h
      · rw [ofValue_of_metadata hroot hmetadata] at h
        exact ⟨_, .metadata hroot hmetadata, (Except.error.inj h).symm⟩
    · rw [ofValue_of_not_isMap hroot] at h
      exact ⟨_, .root hroot, (Except.error.inj h).symm⟩
  · rintro ⟨defect, hdefect, rfl⟩
    cases hdefect with
    | root hroot => exact ofValue_of_not_isMap hroot
    | metadata hroot h => exact ofValue_of_metadata hroot h
    | labels hroot hmetadata h =>
      rw [ofValue_eq hroot hmetadata, texts_eq_error_iff.2 ⟨defect, h, rfl⟩]
      rfl
    | annotations hroot hmetadata hlabels h =>
      obtain ⟨labels, hlabels⟩ := exists_texts_iff.2 hlabels
      rw [ofValue_eq hroot hmetadata, hlabels, Except.bind, texts_eq_error_iff.2 ⟨defect, h, rfl⟩]
      rfl

/-- A tree is taken exactly if it is a manifest, and otherwise the first defect is named with
    the name in the metadata. The tree is kept, and what the document says of itself is what
    a look-up finds in the tree. -/
theorem ofValue_identity_agrees (v : Value) :
    ((∃ d, ofValue v = .ok d) ↔ IsManifest v) ∧
      (∀ d, ofValue v = .ok d →
        d.data = v ∧
        (v.HasDistinctKeys → ∀ k x,
          (d.labels.get? k = some x ↔
            d.lookupText ⟨[.key "metadata", .key "labels", .key k]⟩ = .ok x) ∧
          (d.annotations.get? k = some x ↔
            d.lookupText ⟨[.key "metadata", .key "annotations", .key k]⟩ = .ok x)) ∧
        ∀ x,
          (d.lookupText ⟨[.key "metadata", .key "name"]⟩ = .ok x → d.name = x) ∧
          (d.lookupText ⟨[.key "metadata", .key "namespace"]⟩ = .ok x → d.namespaceName = x) ∧
          (d.lookupText ⟨[.key "kind"]⟩ = .ok x → d.kind = x)) ∧
      ∀ e, ofValue v = .error e ↔
        ∃ defect, FirstDefect v defect ∧
          e = .malformed (((v.resolve? [.key "metadata", .key "name"]).bind
            Value.scalarText?).getD "") defect := by
  refine ⟨exists_ofValue_iff, fun d h => ?_, fun e => ?_⟩
  · obtain ⟨-, -, labels, hlabels, annotations, hannotations, rfl⟩ := ofValue_eq_ok_iff.1 h
    simp only [lookupText_eq_ok_iff, Value.resolve?_key_cons, Value.resolve?_key]
    refine ⟨rfl, fun hkeys k x => ?_, fun x => ?_⟩
    · have hmetadata := hkeys.part "metadata"
      exact ⟨get?_texts hlabels (hmetadata.part "labels"),
        get?_texts hannotations (hmetadata.part "annotations")⟩
    · exact ⟨fieldText_of_get?, fieldText_of_get?, fieldText_of_get?⟩
  · rw [ofValue_eq_error_iff, Value.resolve?_key_cons, Value.resolve?_key]
    rfl

/-- A manifest with a number for a name. -/
def numbered (labels : List (String × Value)) : Value :=
  .map [("kind", .text "A"),
    ("metadata", .map [("name", .number (.integer 7)), ("labels", .map labels)])]

/-- The first label that is not a text is named, and the document by the text of its number. -/
theorem ofValue_identity_agrees_of_numbered :
    (numbered [("app", .text "web")]).HasDistinctKeys ∧
      (∃ d, ofValue (numbered [("app", .text "web")]) = .ok d ∧
        d.labels.get? "app" = some "web" ∧ d.kind = "A") ∧
      ofValue (numbered [("app", .text "web"), ("tier", .number (.integer 1)), ("zone", .null)]) =
        .error (.malformed "7" (.entryNotText "labels" "tier" "number")) := by
  have hread : Value.parseStream
      "kind: A\nmetadata: \x7bname: 7, labels: \x7bapp: web\x7d\x7d\n" =
        .ok [numbered [("app", .text "web")]] := by decide +kernel
  have hkeys := Value.hasDistinctKeys_of_parseStream hread _ List.mem_cons_self
  obtain ⟨haccepts, hagrees, -⟩ := ofValue_identity_agrees (numbered [("app", .text "web")])
  have hmanifest : IsManifest (numbered [("app", .text "web")]) := by
    refine ⟨rfl, .map fun _ _ => trivial, .map ?_, .null⟩
    exact List.forall_mem_singleton.2 ⟨"web", rfl⟩
  obtain ⟨d, hd⟩ := haccepts.2 hmanifest
  obtain ⟨hdata, hlabels, hidentity⟩ := hagrees d hd
  refine ⟨hkeys, ⟨d, hd, ?_, ?_⟩, ?_⟩
  · refine (hlabels hkeys "app" "web").1.2 ?_
    rw [lookupText, lookupAs, hdata]
    rfl
  · refine (hidentity "A").2.2 ?_
    rw [lookupText, lookupAs, hdata]
    rfl
  · refine ((ofValue_identity_agrees _).2.2 _).2 ⟨.entryNotText "labels" "tier" "number", ?_, rfl⟩
    refine .labels rfl (.map fun _ _ => trivial) ?_
    refine @FieldDefect.entryNotText "labels" [("app", .text "web")] [("zone", .null)] _ _ ?_ ?_
    · exact List.forall_mem_singleton.2 ⟨"web", rfl⟩
    · rintro ⟨s, hs⟩
      cases hs

end Document

end ManifestBundle
