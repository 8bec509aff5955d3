import ManifestBundle.Command.Basic
import ManifestBundle.Proofs.KeyValues.Spelling

/-!
# Lists of labels that are joined

Two lists with a comma between them are read as the entries of the first and then those of the
second (`entryTexts_append`), so the values of the second go before those of the first. Several
lists are read one after the other in the same way, and it makes no difference to the selector
that criteria describe whether their lists are given one by one or joined
(`parse_joined`). Only the text that an error names is another one then (`SameReading`).
-/

namespace ManifestBundle

namespace KeyValues

variable {m start : KeyValues}

/-- Lists that are joined by a comma have the entries of both. -/
theorem entryTexts_append (a b : String) :
    entryTexts (a ++ "," ++ b) = entryTexts a ++ entryTexts b := by
  have hpieces : Text.splitOn ',' (a ++ "," ++ b).toList =
      Text.splitOn ',' a.toList ++ Text.splitOn ',' b.toList := by
    rw [← Text.splitOn_append]
    simp
  simp only [entryTexts, hpieces, List.map_append, List.filter_append]

/-- Lists that are joined by commas have the entries of all of them. -/
theorem entryTexts_intercalate (texts : List String) :
    entryTexts (String.intercalate "," texts) = texts.flatMap entryTexts := by
  induction texts with
  | nil => rfl
  | cons text texts ih =>
    cases texts with
    | nil => simp
    | cons next texts =>
      rw [String.intercalate_cons_cons, entryTexts_append, ih]
      rfl

theorem parse_eq_ok_iff {text : String} :
    parse text = .ok m ↔ ∃ es, (entryTexts text).mapM entry? = .ok es ∧ ofEntries es = m := by
  rw [parse_eq, Except.map_eq_ok_iff]

/-- A joined list is read exactly if both lists are. -/
theorem isOk_parse_append (a b : String) :
    (parse (a ++ "," ++ b)).isOk = ((parse a).isOk && (parse b).isOk) := by
  rw [Bool.eq_iff_iff]
  simp only [isOk_parse, entryTexts_append, Bool.and_eq_true, Except.isOk_mapM,
    List.forall_mem_append]

/-- Two lists with a comma between them are read if both are, and the second goes before. -/
theorem parse_append_eq_ok_iff {a b : String} :
    parse (a ++ "," ++ b) = .ok m ↔
      ∃ ma mb, parse a = .ok ma ∧ parse b = .ok mb ∧ ma.insertAll mb.entries = m := by
  simp only [parse_eq_ok_iff, entryTexts_append, Except.mapM_append_eq_ok_iff]
  constructor
  · rintro ⟨es, ⟨es₁, es₂, hes₁, hes₂, rfl⟩, rfl⟩
    refine ⟨_, _, ⟨es₁, hes₁, rfl⟩, ⟨es₂, hes₂, rfl⟩, ?_⟩
    rw [insertAll_ofEntries, ofEntries, ofEntries, insertAll_append]
  · rintro ⟨_, _, ⟨es₁, hes₁, rfl⟩, ⟨es₂, hes₂, rfl⟩, rfl⟩
    refine ⟨_, ⟨es₁, es₂, hes₁, hes₂, rfl⟩, ?_⟩
    rw [insertAll_ofEntries, ofEntries, ofEntries, insertAll_append]

/-- Several lists are read as all of their entries, one after the other. -/
theorem parseAll_eq_ok_iff {texts : List String} :
    start.parseAll texts = .ok m ↔
      ∃ es, (texts.flatMap entryTexts).mapM entry? = .ok es ∧ start.insertAll es = m := by
  induction texts generalizing start with
  | nil =>
    refine ⟨fun h => ⟨[], rfl, Except.ok.inj h⟩, ?_⟩
    rintro ⟨es, hes, rfl⟩
    rw [← Except.ok.inj hes]
    rfl
  | cons text texts ih =>
    have hcons : start.parseAll (text :: texts) = .ok m ↔
        ∃ es, (entryTexts text).mapM entry? = .ok es ∧
          (start.insertAll es).parseAll texts = .ok m := by
      rw [parseAll, parse_eq]
      cases (entryTexts text).mapM entry? <;> simp [Except.map, insertAll_ofEntries]
    rw [hcons, List.flatMap_cons]
    simp only [ih, Except.mapM_append_eq_ok_iff]
    constructor
    · rintro ⟨es, hes, more, hmore, rfl⟩
      exact ⟨_, ⟨es, more, hes, hmore, rfl⟩, insertAll_append start es more⟩
    · rintro ⟨_, ⟨es, more, hes, hmore, rfl⟩, rfl⟩
      exact ⟨es, hes, more, hmore, (insertAll_append start es more).symm⟩

theorem exists_of_parseAll_eq_error {texts : List String} {e : DocumentError}
    (h : start.parseAll texts = .error e) : ∃ text cause, e = .invalidLabels text cause := by
  induction texts generalizing start with
  | nil => cases h
  | cons text texts ih =>
    rw [parseAll] at h
    split at h
    · exact ih h
    · cases h
      exact ⟨_, _, rfl⟩

end KeyValues

/-- Both give the same result, or both refuse a list of labels, which need not be the same. -/
inductive SameReading {α : Type} : Except DocumentError α → Except DocumentError α → Prop
  | result (a : α) : SameReading (.ok a) (.ok a)
  | refusal (text text' : String) (cause cause' : KeyValues.EntryError) :
    SameReading (.error (.invalidLabels text cause)) (.error (.invalidLabels text' cause'))

namespace SameReading

variable {α β : Type} {x y : Except DocumentError α}

/-- What follows two readings that agree agrees, too. -/
theorem bind {f g : α → Except DocumentError β} (h : SameReading x y)
    (hfg : ∀ a, SameReading (f a) (g a)) : SameReading (x.bind f) (y.bind g) := by
  cases h with
  | result a => exact hfg a
  | refusal => exact .refusal _ _ _ _

end SameReading

/-- Lists with the same entries between them are read alike. -/
theorem KeyValues.sameReading_parseAll (start : KeyValues) {texts texts' : List String}
    (h : texts.flatMap entryTexts = texts'.flatMap entryTexts) :
    SameReading (start.parseAll texts) (start.parseAll texts') := by
  have hok (m : KeyValues) : start.parseAll texts = .ok m ↔ start.parseAll texts' = .ok m := by
    rw [parseAll_eq_ok_iff, parseAll_eq_ok_iff, h]
  cases hread : start.parseAll texts with
  | ok m =>
    rw [(hok m).1 hread]
    exact .result m
  | error e =>
    obtain ⟨text, cause, rfl⟩ := exists_of_parseAll_eq_error hread
    cases hread' : start.parseAll texts' with
    | ok m => cases hread.symm.trans ((hok m).2 hread')
    | error e =>
      obtain ⟨text', cause', rfl⟩ := exists_of_parseAll_eq_error hread'
      exact .refusal text text' cause cause'

namespace Criteria

variable {c : Criteria} {labels annotations : List String}

theorem sameReading_selector (mode : LabelMatch)
    (hlabels : c.labels.flatMap KeyValues.entryTexts = labels.flatMap KeyValues.entryTexts)
    (hannotations : c.annotations.flatMap KeyValues.entryTexts =
      annotations.flatMap KeyValues.entryTexts) :
    SameReading (c.selector mode) ({ c with labels, annotations }.selector mode) :=
  (KeyValues.sameReading_parseAll .empty hlabels).bind fun _ =>
    (KeyValues.sameReading_parseAll .empty hannotations).bind fun _ => .result _

/-- Two lists with a comma between them are read if both are, and then the values of the second
    go before those of the first. So a selector does not depend on whether the lists of labels,
    or those of annotations, are given one by one or joined. -/
theorem parse_joined (a b : String) :
    (KeyValues.parse (a ++ "," ++ b)).isOk =
        ((KeyValues.parse a).isOk && (KeyValues.parse b).isOk) ∧
      (∀ m, KeyValues.parse (a ++ "," ++ b) = .ok m ↔
        ∃ ma mb, KeyValues.parse a = .ok ma ∧ KeyValues.parse b = .ok mb ∧
          ∀ k, m.get? k = (mb.get? k).or (ma.get? k)) ∧
      ∀ (c : Criteria) (mode : LabelMatch),
        SameReading (c.selector mode)
          ({ c with labels := [String.intercalate "," c.labels] }.selector mode) ∧
        SameReading (c.selector mode)
          ({ c with annotations := [String.intercalate "," c.annotations] }.selector mode) := by
  have hjoined (texts : List String) : texts.flatMap KeyValues.entryTexts =
      [String.intercalate "," texts].flatMap KeyValues.entryTexts := by
    rw [List.flatMap_singleton, KeyValues.entryTexts_intercalate]
  refine ⟨KeyValues.isOk_parse_append a b, fun m => ?_, fun c mode => ⟨?_, ?_⟩⟩
  · rw [KeyValues.parse_append_eq_ok_iff]
    refine exists_congr fun ma => exists_congr fun mb => and_congr_right' (and_congr_right' ?_)
    rw [eq_comm, KeyValues.ext_get?_iff]
    simp only [KeyValues.get?_insertAll_entries]
  · exact sameReading_selector mode (hjoined c.labels) rfl
  · exact sameReading_selector mode rfl (hjoined c.annotations)

end Criteria

end ManifestBundle
