import ManifestBundle.Proofs.Except
import ManifestBundle.Proofs.KeyValues.Lookup
import ManifestBundle.Proofs.Text.Split
import ManifestBundle.Proofs.Text.Trim

/-!
# Spelling labels in a list

Which maps can be spelled as `key=value,key=value`, and which texts are such a list
(`parse_spells`). An entry is read from the two sides of its first equals sign
(`entry?_trim_eq_ok_iff`), so a key or a value comes without blanks at its ends and without the
characters that part entries (`isSpellable_of_entry?`). Conversely, an entry of this kind is
read as it is spelled, and so is a list of them (`parse_spelled`).
-/

namespace ManifestBundle.KeyValues

/-! ## Entries -/

/-- A key and a value that can be spelled: no blanks are at their ends, they hold no comma, and
    the key is not empty and holds no equals sign. -/
structure IsSpellable (e : String × String) : Prop where
  key_ne : e.1 ≠ ""
  key_isTrimmed : Text.IsTrimmed e.1.toList
  comma_notMem_key : ',' ∉ e.1.toList
  equals_notMem_key : '=' ∉ e.1.toList
  value_isTrimmed : Text.IsTrimmed e.2.toList
  comma_notMem_value : ',' ∉ e.2.toList

/-- An entry in a list. -/
def spell (e : String × String) : String :=
  e.1 ++ "=" ++ e.2

theorem toList_spell (e : String × String) :
    (spell e).toList = e.1.toList ++ '=' :: e.2.toList := by
  simp [spell]

variable {piece before after : List Char} {e : String × String}

theorem isBlank_equals : Text.isBlank '=' = false := by
  decide

/-- An entry is read from what stands before and behind its first equals sign. -/
theorem entry?_trim (h : '=' ∉ before) (after : List Char) :
    entry? (Text.trim (before ++ '=' :: after)) =
      if Text.allBlank before then
        .error (.noKey (String.ofList (Text.trim (before ++ '=' :: after))))
      else .ok (String.ofList (Text.trim before), String.ofList (Text.trim after)) := by
  have hstart : '=' ∉ Text.trimStart before :=
    fun hmem => h ((List.dropWhile_suffix _).subset hmem)
  rw [Text.trim_append_cons isBlank_equals, entry?, Text.cutFirst?_append hstart]
  simp only [Text.trim_trimStart, Text.trim_trimEnd, List.isEmpty_iff, Text.trim_eq_nil_iff]

theorem entry?_trim_of_notMem (h : '=' ∉ piece) :
    entry? (Text.trim piece) = .error (.noEquals (String.ofList (Text.trim piece))) := by
  unfold entry?
  rw [Text.cutFirst?_eq_none_iff.2 fun hmem => h (Text.mem_of_mem_trim hmem)]

/-- An entry is cut at its first equals sign, and key and value are trimmed. -/
theorem entry?_trim_eq_ok_iff :
    entry? (Text.trim piece) = .ok e ↔ ∃ before after, piece = before ++ '=' :: after ∧
      '=' ∉ before ∧ Text.allBlank before = false ∧
        e = (String.ofList (Text.trim before), String.ofList (Text.trim after)) := by
  constructor
  · intro h
    cases hcut : Text.cutFirst? '=' piece with
    | none =>
      rw [entry?_trim_of_notMem (Text.cutFirst?_eq_none_iff.1 hcut)] at h
      nomatch h
    | some cut =>
      obtain ⟨rfl, hbefore⟩ := Text.cutFirst?_eq_some_iff.1 hcut
      rw [entry?_trim hbefore] at h
      split at h
      · nomatch h
      · next hblank =>
        cases h
        exact ⟨_, _, rfl, hbefore, Bool.eq_false_iff.2 hblank, rfl⟩
  · rintro ⟨before, after, rfl, hbefore, hblank, rfl⟩
    rw [entry?_trim hbefore, hblank]
    rfl

/-- What is read from a piece without commas can be spelled. -/
theorem isSpellable_of_entry? (h : entry? (Text.trim piece) = .ok e) (hpiece : ',' ∉ piece) :
    IsSpellable e := by
  obtain ⟨before, after, rfl, hequals, hblank, rfl⟩ := entry?_trim_eq_ok_iff.1 h
  rw [List.mem_append, List.mem_cons, not_or, not_or] at hpiece
  have hne : String.ofList (Text.trim before) ≠ "" := by
    intro hempty
    have hnil : Text.trim before = [] := by simpa using congrArg String.toList hempty
    rw [Text.trim_eq_nil_iff.1 hnil] at hblank
    nomatch hblank
  refine ⟨hne, ?_, ?_, ?_, ?_, ?_⟩
  all_goals simp only [String.toList_ofList]
  · exact Text.isTrimmed_trim before
  · exact fun hmem => hpiece.1 (Text.mem_of_mem_trim hmem)
  · exact fun hmem => hequals (Text.mem_of_mem_trim hmem)
  · exact Text.isTrimmed_trim after
  · exact fun hmem => hpiece.2.2 (Text.mem_of_mem_trim hmem)

/-- An entry that can be spelled has no blanks at its ends when it is. -/
theorem trim_spell (h : IsSpellable e) : Text.trim (spell e).toList = (spell e).toList := by
  rw [toList_spell, Text.trim_append_cons isBlank_equals,
    Text.trimStart_of_head h.key_isTrimmed.head,
    Text.trimEnd_of_last h.value_isTrimmed.last]

/-- There is no comma in an entry that can be spelled. -/
theorem comma_notMem_spell (h : IsSpellable e) : ',' ∉ (spell e).toList := by
  rw [toList_spell, List.mem_append, List.mem_cons, not_or, not_or]
  exact ⟨h.comma_notMem_key, by decide, h.comma_notMem_value⟩

/-- An entry that can be spelled is read back. -/
theorem entry?_spell (h : IsSpellable e) : entry? (spell e).toList = .ok e := by
  rw [← trim_spell h, entry?_trim_eq_ok_iff]
  refine ⟨_, _, toList_spell e, h.equals_notMem_key, ?_, ?_⟩
  · rw [← Bool.not_eq_true, ← Text.trim_eq_nil_iff, Text.trim_of_isTrimmed h.key_isTrimmed]
    exact fun hnil => h.key_ne (String.toList_eq_nil_iff.1 hnil)
  · simp only [Text.trim_of_isTrimmed h.key_isTrimmed, Text.trim_of_isTrimmed h.value_isTrimmed,
      String.ofList_toList]

/-! ## Lists -/

/-- The entries of a list as they stand there, without the blanks around them; blank ones do
    not count. -/
def entryTexts (text : String) : List (List Char) :=
  ((Text.splitOn ',' text.toList).map Text.trim).filter (!·.isEmpty)

theorem parse_eq (text : String) : parse text = ((entryTexts text).mapM entry?).map ofEntries := by
  change ((entryTexts text).mapM entry?).bind _ = _
  cases (entryTexts text).mapM entry? <;> rfl

theorem isOk_parse (text : String) :
    (parse text).isOk = ((entryTexts text).mapM entry?).isOk := by
  rw [parse_eq]
  cases (entryTexts text).mapM entry? <;> rfl

/-- Entries are the pieces between commas that are not blank, trimmed. -/
theorem mem_entryTexts_iff {text : String} {cs : List Char} :
    cs ∈ entryTexts text ↔
      ∃ piece ∈ Text.splitOn ',' text.toList,
        Text.allBlank piece = false ∧ Text.trim piece = cs := by
  simp only [entryTexts, List.mem_filter, List.mem_map, Bool.not_eq_true',
    List.isEmpty_eq_false_iff]
  constructor
  · rintro ⟨⟨piece, hpiece, rfl⟩, hne⟩
    refine ⟨piece, hpiece, ?_, rfl⟩
    exact Bool.eq_false_iff.2 fun hblank => hne (Text.trim_eq_nil_iff.2 hblank)
  · rintro ⟨piece, hpiece, hblank, rfl⟩
    refine ⟨⟨piece, hpiece, rfl⟩, fun hnil => ?_⟩
    rw [Text.trim_eq_nil_iff.1 hnil] at hblank
    nomatch hblank

/-- The keys and values of a map that has been read can be spelled. -/
theorem isSpellable_of_parse {text : String} {m : KeyValues} (h : parse text = .ok m) :
    ∀ e ∈ m.entries, IsSpellable e := by
  rw [parse_eq] at h
  obtain ⟨es, hes, rfl⟩ := Except.map_eq_ok_iff.1 h
  intro e he
  rw [← (Except.mapM_eq_ok_iff.1 hes).2] at he
  obtain ⟨cs, hcs, hentry⟩ := List.mem_filterMap.1 (mem_of_mem_ofEntries he)
  obtain ⟨piece, hpiece, -, rfl⟩ := mem_entryTexts_iff.1 hcs
  exact isSpellable_of_entry? (Except.toOption_eq_some_iff.1 hentry)
    (Text.notMem_of_mem_splitOn hpiece)

theorem entryTexts_spelled {es : List (String × String)} (h : ∀ e ∈ es, IsSpellable e) :
    entryTexts (String.intercalate "," (es.map spell)) = es.map fun e => (spell e).toList := by
  by_cases hnil : es = []
  · subst hnil
    rfl
  · have htext : (String.intercalate "," (es.map spell)).toList =
        Text.join ',' (es.map fun e => (spell e).toList) := by
      rw [String.toList_intercalate, List.map_map]
      rfl
    have hcomma : ∀ piece ∈ es.map fun e => (spell e).toList, ',' ∉ piece :=
      List.forall_mem_map.2 fun e he => comma_notMem_spell (h e he)
    have htrim : (es.map fun e => (spell e).toList).map Text.trim =
        es.map fun e => (spell e).toList := by
      rw [List.map_map]
      exact List.map_congr_left fun e he => trim_spell (h e he)
    rw [entryTexts, htext, Text.splitOn_join (by simpa using hnil) hcomma, htrim,
      List.filter_eq_self]
    exact List.forall_mem_map.2 fun e _ => by simp [toList_spell]

/-- A list of entries that can be spelled is read as the map that is made of them. -/
theorem parse_spelled {es : List (String × String)} (h : ∀ e ∈ es, IsSpellable e) :
    parse (String.intercalate "," (es.map spell)) = .ok (ofEntries es) := by
  have hread : (es.map fun e => (spell e).toList).mapM entry? = .ok es :=
    Except.mapM_map_eq_ok fun e he => entry?_spell (h e he)
  rw [parse_eq, entryTexts_spelled h, hread]
  rfl

/-- A piece of a list is at fault if it has no equals sign, or nothing but blanks before the
    first one. -/
theorem exists_fault_iff : (∃ cause, entry? (Text.trim piece) = .error cause) ↔
    '=' ∉ piece ∨ ∃ before after, piece = before ++ '=' :: after ∧ Text.allBlank before := by
  cases hcut : Text.cutFirst? '=' piece with
  | none =>
    have hequals := Text.cutFirst?_eq_none_iff.1 hcut
    rw [entry?_trim_of_notMem hequals]
    exact iff_of_true ⟨_, rfl⟩ (.inl hequals)
  | some cut =>
    obtain ⟨before, after⟩ := cut
    obtain ⟨rfl, hbefore⟩ := Text.cutFirst?_eq_some_iff.1 hcut
    rw [entry?_trim hbefore]
    split
    · next hblank => exact iff_of_true ⟨_, rfl⟩ (.inr ⟨before, after, rfl, hblank⟩)
    · next hblank =>
      refine iff_of_false nofun ?_
      rintro (hequals | ⟨before', after', htext, hblank'⟩)
      · exact hequals (List.mem_append_right _ List.mem_cons_self)
      · -- The equals sign behind blanks is the first one.
        have hbefore' : '=' ∉ before' := fun hmem =>
          absurd (Text.allBlank_iff.1 hblank' '=' hmem) (by decide)
        rw [htext, Text.cutFirst?_append hbefore'] at hcut
        cases hcut
        exact hblank hblank'

/-- A list is refused exactly if one of its entries is. -/
theorem parse_refused_iff {text : String} : (∃ cause, parse text = .error cause) ↔
    ∃ piece ∈ Text.splitOn ',' text.toList, Text.allBlank piece = false ∧
      ∃ cause, entry? (Text.trim piece) = .error cause := by
  simp only [Except.exists_eq_error_iff]
  rw [isOk_parse, ← Bool.not_eq_true, Except.isOk_mapM]
  simp only [mem_entryTexts_iff, not_forall, Bool.not_eq_true]
  constructor
  · rintro ⟨cs, ⟨piece, hpiece, hblank, rfl⟩, hfault⟩
    exact ⟨piece, hpiece, hblank, hfault⟩
  · rintro ⟨piece, hpiece, hblank, hfault⟩
    exact ⟨_, ⟨piece, hpiece, hblank, rfl⟩, hfault⟩

/-- A map is the result of reading some list exactly if its entries can be spelled; then it is
    read from its text, and from its entries spelled in any order. A text is refused exactly if
    one of its pieces between commas is not blank and has no equals sign, or nothing but blanks
    before the first one. -/
theorem parse_spells (m : KeyValues) (text : String) :
    ((∃ text, parse text = .ok m) ↔ ∀ e ∈ m.entries, IsSpellable e) ∧
      ((∀ e ∈ m.entries, IsSpellable e) → parse m.text = .ok m ∧
        ∀ es : List (String × String), es.Perm m.entries →
          parse (String.intercalate "," (es.map fun e => e.1 ++ "=" ++ e.2)) = .ok m) ∧
      ((∃ cause, parse text = .error cause) ↔
        ∃ piece ∈ Text.splitOn ',' text.toList, Text.allBlank piece = false ∧
          ('=' ∉ piece ∨
            ∃ before after, piece = before ++ '=' :: after ∧ Text.allBlank before)) := by
  have hread (h : ∀ e ∈ m.entries, IsSpellable e) (es : List (String × String))
      (hperm : es.Perm m.entries) :
      parse (String.intercalate "," (es.map spell)) = .ok m := by
    rw [← ofEntries_of_perm hperm]
    exact parse_spelled fun e he => h e (hperm.mem_iff.1 he)
  refine ⟨⟨?_, fun h => ⟨m.text, hread h m.entries (.refl _)⟩⟩,
    fun h => ⟨hread h m.entries (.refl _), hread h⟩, ?_⟩
  · rintro ⟨text, h⟩
    exact isSpellable_of_parse h
  · simp only [parse_refused_iff, exists_fault_iff]

/-- A value may be empty or hold equals signs, and the entries may come in any order. -/
theorem parse_spells_of_two :
    let m : KeyValues := ofEntries [("a b", "1=2"), ("c", "")]
    m.text = "a b=1=2,c=" ∧ parse "c=,a b=1=2" = .ok m ∧
      ∃ cause, parse "c=, =1" = .error cause := by
  intro m
  have hspellable : ∀ e ∈ m.entries, IsSpellable e := by
    rw [← (parse_spells m "").1]
    exact ⟨"c=,a b=1=2,", by decide +kernel⟩
  have hread := ((parse_spells m "").2.1 hspellable).2 [("c", ""), ("a b", "1=2")] (.swap _ _ _)
  refine ⟨by decide +kernel, hread, (parse_spells m "c=, =1").2.2.2 ?_⟩
  exact ⟨[' ', '=', '1'], by decide, by decide, .inr ⟨[' '], ['1'], rfl, by decide⟩⟩

end ManifestBundle.KeyValues
