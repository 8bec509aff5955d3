import ManifestBundle.Command.Run
import ManifestBundle.Proofs.Document.Manifest
import ManifestBundle.Proofs.Text.Split

/-!
# Group and version in one text

Group and version of a document are stated in one text, and parted by its last slash. So there
is no slash in a version, and a text is either a version alone or a group, a slash and a version
(`exists_parts`). A document shows the two in one text again, the version alone if the group is
empty.

* `splitApiVersion_slashed`: what is shown is parted into the same group and version, so a
  criterion on group and version can be taken from a manifest or from a listing
  (`Criteria.selector_apiVersion_selects_iff`);
* `apiVersion_ofValue_eq_iff`: what is shown is what the manifest states, but for a slash that
  stands first and is the only one: it is not shown, as the group before it is empty.
-/

namespace ManifestBundle

namespace Document

/-! ## Parting and joining -/

theorem toList_slash (first second : String) :
    (first ++ "/" ++ second).toList = first.toList ++ '/' :: second.toList := by
  simp

/-- A text without a slash is a version. -/
theorem splitApiVersion_of_notMem {version : String} (h : '/' ∉ version.toList) :
    splitApiVersion version = ("", version) := by
  rw [splitApiVersion, Text.cutLast?_eq_none_iff.2 h]

/-- Behind the last slash stands the version. -/
theorem splitApiVersion_append (group : String) {version : String} (h : '/' ∉ version.toList) :
    splitApiVersion (group ++ "/" ++ version) = (group, version) := by
  rw [splitApiVersion, toList_slash, Text.cutLast?_append _ h]
  simp

/-- A text is a version alone, or a group and a version with a slash between them. -/
theorem exists_parts (text : String) :
    ∃ version, '/' ∉ version.toList ∧
      (text = version ∨ ∃ group, text = group ++ "/" ++ version) := by
  cases hcut : Text.cutLast? '/' text.toList with
  | none => exact ⟨text, Text.cutLast?_eq_none_iff.1 hcut, .inl rfl⟩
  | some cut =>
    obtain ⟨htext, hversion⟩ := Text.cutLast?_eq_some_iff.1 hcut
    refine ⟨String.ofList cut.2, by rwa [String.toList_ofList], .inr ⟨String.ofList cut.1, ?_⟩⟩
    rw [← String.toList_inj, htext, toList_slash, String.toList_ofList, String.toList_ofList]

theorem notMem_splitApiVersion (text : String) : '/' ∉ (splitApiVersion text).2.toList := by
  obtain ⟨version, hversion, rfl | ⟨group, rfl⟩⟩ := exists_parts text
  · rwa [splitApiVersion_of_notMem hversion]
  · rwa [splitApiVersion_append group hversion]

/-- Group and version that are joined are parted again, if there is no slash in the version. -/
theorem splitApiVersion_slashed (group : String) {version : String} (h : '/' ∉ version.toList) :
    splitApiVersion (slashed group version) = (group, version) := by
  rw [slashed]
  split
  · next hgroup => rw [splitApiVersion_of_notMem h, hgroup]
  · exact splitApiVersion_append group h

/-- Nothing but a slash stands before the version. -/
def IsRooted (text version : String) : Prop :=
  text = "/" ++ version ∧ '/' ∉ version.toList

theorem IsRooted.splitApiVersion_eq {text version : String} (h : IsRooted text version) :
    splitApiVersion text = ("", version) := by
  have hgroup : text = "" ++ "/" ++ version := by rw [h.1, String.empty_append]
  rw [hgroup, splitApiVersion_append "" h.2]

/-- A text is parted and joined without a loss, unless nothing but a slash stands before the
    version. -/
theorem slashed_splitApiVersion_eq_iff (text : String) :
    slashed (splitApiVersion text).1 (splitApiVersion text).2 = text ↔
      ¬ ∃ version, IsRooted text version := by
  -- A text with a slash in front of it is not a version.
  have hslash (rest : String) : '/' ∈ ("" ++ "/" ++ rest).toList := by simp
  obtain ⟨version, hversion, rfl | ⟨group, rfl⟩⟩ := exists_parts text
  · rw [splitApiVersion_of_notMem hversion]
    refine iff_of_true rfl ?_
    rintro ⟨rest, rfl, -⟩
    exact hversion (hslash rest)
  · rw [splitApiVersion_append group hversion]
    by_cases hgroup : group = ""
    · subst hgroup
      refine iff_of_false (fun h => hversion ?_) fun h => h ⟨version, ?_, hversion⟩
      · have hshown : version = "" ++ "/" ++ version := h
        rw [hshown]
        exact hslash version
      · rw [String.empty_append]
    · rw [slashed, if_neg hgroup]
      refine iff_of_true rfl ?_
      rintro ⟨rest, hrooted⟩
      have hparts := splitApiVersion_append group hversion
      rw [hrooted.splitApiVersion_eq] at hparts
      exact hgroup (Prod.ext_iff.1 hparts).1.symm

/-! ## What a document shows -/

variable {v : Value} {d e : Document}

/-- Group and version of a document are the parts of what the manifest states. -/
theorem splitApiVersion_fieldText (h : ofValue v = .ok d) :
    splitApiVersion (fieldText v "apiVersion") = (d.group, d.version) := by
  obtain ⟨-, -, labels, -, annotations, -, rfl⟩ := ofValue_eq_ok_iff.1 h
  rfl

/-- They are the parts of what the document shows, too. -/
theorem splitApiVersion_apiVersion (h : ofValue v = .ok d) :
    splitApiVersion d.apiVersion = (d.group, d.version) := by
  refine splitApiVersion_slashed d.group ?_
  have hversion := notMem_splitApiVersion (fieldText v "apiVersion")
  rwa [splitApiVersion_fieldText h] at hversion

theorem listLine_eq (d : Document) : ∃ rest, d.listLine = d.apiVersion ++ "\t" ++ rest :=
  ⟨d.kind ++ "\t" ++ slashed d.namespaceName d.name ++ "\n", by
    simp only [listLine, String.append_assoc]⟩

/-- A document shows, and is listed with, what the manifest states for its group and version,
    unless nothing but a slash stands there before the version: then its group is empty, and it
    shows the version. -/
theorem apiVersion_ofValue_eq_iff {text : String} (hd : ofValue v = .ok d)
    (htext : (v.get? "apiVersion").bind Value.scalarText? = some text) :
    (d.apiVersion = text ↔ ¬ ∃ version, IsRooted text version) ∧
      (∀ version, IsRooted text version → d.group = "" ∧ d.apiVersion = version) ∧
      ∃ rest, d.listLine = d.apiVersion ++ "\t" ++ rest := by
  have hparts : splitApiVersion text = (d.group, d.version) := by
    rw [← splitApiVersion_fieldText hd, fieldText, htext]
    rfl
  refine ⟨?_, fun version hrooted => ?_, d.listLine_eq⟩
  · rw [← slashed_splitApiVersion_eq_iff, hparts]
    rfl
  · obtain ⟨hgroup, hversion⟩ := Prod.ext_iff.1 (hparts.symm.trans hrooted.splitApiVersion_eq)
    refine ⟨hgroup, ?_⟩
    rw [apiVersion, slashed, if_pos hgroup]
    exact hversion

/-- A manifest that states nothing but a name and the given group and version. -/
def stating (apiVersion : String) : Value :=
  .map [("apiVersion", .text apiVersion), ("metadata", .map [("name", .text "web")])]

theorem ofValue_stating (apiVersion : String) :
    ofValue (stating apiVersion) = .ok {
      group := (splitApiVersion apiVersion).1
      version := (splitApiVersion apiVersion).2
      kind := ""
      name := "web"
      data := stating apiVersion } := by
  rfl

/-- Of several slashes the last one parts the version, and all of them are shown. -/
theorem apiVersion_ofValue_of_slashes :
    ∃ d, ofValue (stating "//v1") = .ok d ∧
      ((stating "//v1").get? "apiVersion").bind Value.scalarText? = some "//v1" ∧
      d.apiVersion = "//v1" := by
  have hd := ofValue_stating "//v1"
  refine ⟨_, hd, rfl, (apiVersion_ofValue_eq_iff hd rfl).1.2 ?_⟩
  rintro ⟨version, htext, hversion⟩
  have hsplit : "/" ++ "/v1" = "/" ++ version := htext
  obtain rfl : "/v1" = version := (String.append_right_inj "/").1 hsplit
  exact hversion (by decide)

/-- With nothing but a slash before the version the group is empty. -/
theorem ofValue_rooted :
    ofValue (stating "/v1") = .ok {
      group := ""
      version := "v1"
      kind := ""
      name := "web"
      data := stating "/v1" } := by
  have hrooted : IsRooted "/v1" "v1" := ⟨rfl, by decide⟩
  rw [ofValue_stating, hrooted.splitApiVersion_eq]

/-- A lone slash in front is not shown. -/
theorem apiVersion_ofValue_of_rooted :
    (∃ d, ofValue (stating "/v1") = .ok d ∧ d.apiVersion = "v1") ∧
      ¬ ∀ v d text, ofValue v = .ok d →
        (v.get? "apiVersion").bind Value.scalarText? = some text → d.apiVersion = text := by
  refine ⟨⟨_, ofValue_rooted, rfl⟩, fun hkeeps => ?_⟩
  have hshown : "v1" = "/v1" := hkeeps _ _ _ ofValue_rooted rfl
  exact absurd hshown (by decide)

end Document

namespace Criteria

open Document

variable {v : Value} {d : Document}

/-- A criterion on group and version together is one on each. -/
theorem selector_apiVersion (text : String) (mode : LabelMatch) :
    selector { apiVersion := some text } mode = .ok {
      group := (splitApiVersion text).1
      version := (splitApiVersion text).2
      labelMatch := mode } := by
  rfl

/-- Documents are selected by a text for group and version if these are its parts. -/
theorem exists_selector_apiVersion (text : String) (mode : LabelMatch) :
    ∃ s, selector { apiVersion := some text } mode = .ok s ∧
      ∀ e, s.selects e ↔ e.isMaterialized ∧ splitApiVersion text = (e.group, e.version) := by
  refine ⟨_, selector_apiVersion text mode, fun e => ?_⟩
  have hempty : KeyValues.empty.isEmpty = true := rfl
  simp only [Selector.selects, Selector.admits, Selector.admitsAll, hempty, Bool.and_eq_true,
    decide_eq_true_eq, Bool.true_or, and_true, and_assoc, Prod.ext_iff]

/-- What a manifest states for group and version, and what stands first where the document is
    listed, selects the document if it has a name, and with it the other named documents of the
    same group and version. -/
theorem selector_apiVersion_selects_iff {text : String} (hd : ofValue v = .ok d)
    (hname : d.isMaterialized) (htext : text = fieldText v "apiVersion" ∨ text = d.apiVersion)
    (mode : LabelMatch) :
    (∃ rest, d.listLine = d.apiVersion ++ "\t" ++ rest) ∧
      ∃ s, selector { apiVersion := some text } mode = .ok s ∧ s.selects d ∧
        ∀ e, s.selects e ↔ e.isMaterialized ∧ e.group = d.group ∧ e.version = d.version := by
  have hparts : splitApiVersion text = (d.group, d.version) := by
    rcases htext with rfl | rfl
    · exact splitApiVersion_fieldText hd
    · exact splitApiVersion_apiVersion hd
  obtain ⟨s, hs, hselects⟩ := exists_selector_apiVersion text mode
  simp only [hparts, Prod.mk.injEq, @eq_comm _ d.group, @eq_comm _ d.version] at hselects
  exact ⟨d.listLine_eq, s, hs, (hselects d).2 ⟨hname, rfl, rfl⟩, hselects⟩

/-- The slash that is not shown makes no difference to what is selected. -/
theorem selector_apiVersion_selects_of_rooted :
    ∃ d, ofValue (stating "/v1") = .ok d ∧ d.isMaterialized ∧
      fieldText (stating "/v1") "apiVersion" = "/v1" ∧ d.apiVersion = "v1" ∧
      ∀ text ∈ ["/v1", "v1"], ∃ s, selector { apiVersion := some text } .subset = .ok s ∧
        s.selects d ∧ ∀ e, s.selects e ↔ e.isMaterialized ∧ e.group = "" ∧ e.version = "v1" := by
  refine ⟨_, ofValue_rooted, rfl, rfl, rfl, fun text htext => ?_⟩
  refine (selector_apiVersion_selects_iff ofValue_rooted rfl ?_ .subset).2
  exact List.mem_pair.1 htext

end Criteria

end ManifestBundle
