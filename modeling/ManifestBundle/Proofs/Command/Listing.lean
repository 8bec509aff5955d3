import ManifestBundle.Command.Run
import ManifestBundle.Proofs.Text.Split
import Mathlib.Algebra.BigOperators.Group.List.Basic
import Mathlib.Algebra.GroupWithZero.Nat
import Mathlib.Data.List.Induction

/-!
# Reading a listing back

A listing is read by lines, each ended by a newline, and a line by its tabs (`rows`). The row of
a document are the texts that it is listed with (`Document.columns`). These are written as they
are, and come from a manifest with any characters in them, so a listing has these rows exactly
if no document in it is listed with a text that holds a tab or a newline
(`Bundle.rows_list_eq_iff`). In any case a document takes one line, and one more for each newline
that it is listed with. A name of two lines shows that a document can take several
(`Bundle.rows_list_of_twoLines`).
-/

namespace ManifestBundle

/-! ## Lines and rows -/

/-- The lines of a text; what stands behind the last newline is none. -/
def Text.lines (cs : List Char) : List (List Char) :=
  (Text.splitOn '\n' cs).dropLast

/-- The texts in a line, between its tabs. -/
def Text.fields (line : List Char) : List String :=
  (Text.splitOn '\t' line).map String.ofList

/-- The rows of a text: the texts in each of its lines. -/
def rows (text : String) : List (List String) :=
  (Text.lines text.toList).map Text.fields

/-- The pieces before the first newline behind a text are lines, and so are those behind it. -/
theorem Text.lines_append (cs ds : List Char) :
    lines (cs ++ '\n' :: ds) = splitOn '\n' cs ++ lines ds := by
  rw [lines, splitOn_append, List.dropLast_append_of_ne_nil (splitOn_ne_nil '\n' ds), lines]

/-- No text in a row holds a character that parts them. -/
theorem notMem_of_mem_rows {text field : String} {row : List String} (hrow : row ∈ rows text)
    (hfield : field ∈ row) : '\t' ∉ field.toList ∧ '\n' ∉ field.toList := by
  obtain ⟨line, hline, rfl⟩ := List.mem_map.1 hrow
  obtain ⟨piece, hpiece, rfl⟩ := List.mem_map.1 hfield
  have hnewline : '\n' ∉ line := Text.notMem_of_mem_splitOn (List.dropLast_subset _ hline)
  rw [String.toList_ofList]
  exact ⟨Text.notMem_of_mem_splitOn hpiece,
    fun h => hnewline (Text.subset_of_mem_splitOn hpiece h)⟩

/-! ## The line of a document -/

namespace Document

variable {d : Document}

/-- The texts that a document is listed with. -/
def columns (d : Document) : List String :=
  [d.apiVersion, d.kind, slashed d.namespaceName d.name]

/-- No text that the document is listed with holds a tab or a newline. -/
def IsTabular (d : Document) : Prop :=
  ∀ text ∈ d.columns, '\t' ∉ text.toList ∧ '\n' ∉ text.toList

/-- The number of newlines that a document is listed with. -/
def newlines (d : Document) : Nat :=
  (d.columns.map (·.toList.count '\n')).sum

/-- The line that lists a document, without its end. -/
def tabbed (d : Document) : List Char :=
  Text.join '\t' (d.columns.map String.toList)

theorem toList_listLine (d : Document) : d.listLine.toList = d.tabbed ++ ['\n'] := by
  simp [listLine, tabbed, columns, Text.join, List.intercalate]

theorem count_tabbed (d : Document) : d.tabbed.count '\n' = d.newlines := by
  simp [tabbed, newlines, columns, Text.join, List.intercalate]

theorem IsTabular.fields_tabbed (h : d.IsTabular) : Text.fields d.tabbed = d.columns := by
  have hpieces : Text.splitOn '\t' d.tabbed = d.columns.map String.toList :=
    Text.splitOn_join (by simp [columns]) (by simpa using fun text htext => (h text htext).1)
  rw [Text.fields, hpieces, List.map_map]
  simp

theorem IsTabular.newlines_eq (h : d.IsTabular) : d.newlines = 0 := by
  refine List.sum_eq_zero fun n hn => ?_
  obtain ⟨text, htext, rfl⟩ := List.mem_map.1 hn
  exact List.count_eq_zero.2 (h text htext).2

/-- A document without tabs and newlines takes one line. -/
theorem IsTabular.splitOn_tabbed (h : d.IsTabular) : Text.splitOn '\n' d.tabbed = [d.tabbed] := by
  refine Text.splitOn_of_notMem (List.count_eq_zero.1 ?_)
  rw [count_tabbed, h.newlines_eq]

end Document

/-! ## The listing -/

namespace Bundle

/-- The lines of a listing are those of the documents in order. -/
theorem lines_listing (ds : List Document) :
    Text.lines (String.join (ds.map Document.listLine)).toList =
      ds.flatMap fun d => Text.splitOn '\n' d.tabbed := by
  induction ds with
  | nil => rfl
  | cons d ds ih =>
    rw [List.map_cons, String.join_cons, String.toList_append, d.toList_listLine,
      List.append_assoc, List.singleton_append, Text.lines_append, ih, List.flatMap_cons]

theorem rows_listing_of_isTabular {ds : List Document} (h : ∀ d ∈ ds, d.IsTabular) :
    rows (String.join (ds.map Document.listLine)) = ds.map Document.columns := by
  rw [rows, lines_listing, List.map_flatMap, List.map_eq_flatMap]
  refine List.flatMap_congr fun d hd => ?_
  rw [(h d hd).splitOn_tabbed, List.map_singleton, (h d hd).fields_tabbed]

theorem length_rows_listing (ds : List Document) :
    (rows (String.join (ds.map Document.listLine))).length =
      (ds.map fun d => d.newlines + 1).sum := by
  rw [rows, List.length_map, lines_listing, List.length_flatMap]
  simp only [Text.length_splitOn, Document.count_tabbed]

/-- Every line of a listing has an end. -/
theorem listing_ends (ds : List Document) :
    String.join (ds.map Document.listLine) = "" ∨
      ∃ front, String.join (ds.map Document.listLine) = front ++ "\n" := by
  cases ds using List.reverseRecOn with
  | nil => exact .inl rfl
  | append_singleton ds d =>
    refine .inr ⟨String.join (ds.map Document.listLine) ++ String.ofList d.tabbed, ?_⟩
    rw [← String.toList_inj]
    simp [d.toList_listLine]

/-- A listing consists of lines with an end, for each document that is selected one and one more
    for each newline that it is listed with. Its rows are what the documents are listed with,
    one after the other, if and only if no tab and no newline is in that. -/
theorem rows_list_eq_iff (b : Bundle) (s : Selector) :
    let M := b.filter s
    let written := (b.list s).output
    (written = "" ∨ ∃ front, written = front ++ "\n") ∧
      (rows written).length = (M.map fun d => d.newlines + 1).sum ∧
      (rows written = M.map Document.columns ↔ ∀ d ∈ M, d.IsTabular) := by
  intro M written
  refine ⟨listing_ends M, length_rows_listing M, fun h d hd text htext => ?_,
    rows_listing_of_isTabular⟩
  have hrow : d.columns ∈ rows written := h ▸ List.mem_map_of_mem hd
  exact notMem_of_mem_rows hrow htext

/-- A manifest with a name of two lines. -/
def twoLines : Value :=
  .map [("apiVersion", .text "v1"), ("kind", .text "A"),
    ("metadata", .map [("name", .text "a\nb")])]

/-- A document takes two lines if its name does. -/
theorem rows_list_of_twoLines :
    (∃ d, Document.ofValue twoLines = .ok d ∧ filter ⟨[d]⟩ .any = [d] ∧
      (list ⟨[d]⟩ .any).output = "v1\tA\ta\nb\n" ∧
      rows (list ⟨[d]⟩ .any).output = [["v1", "A", "a"], ["b"]]) ∧
    ¬ ∀ (b : Bundle) (s : Selector), (∀ d ∈ b.documents, ∃ v, Document.ofValue v = .ok d) →
      rows (b.list s).output = (b.filter s).map Document.columns := by
  have hd : Document.ofValue twoLines =
      .ok { group := "", version := "v1", kind := "A", name := "a\nb", data := twoLines } := by
    rfl
  refine ⟨⟨_, hd, rfl, by decide, by decide⟩, fun h => ?_⟩
  have hrows := h ⟨[_]⟩ .any (by simpa using ⟨_, hd⟩)
  exact absurd hrows (by decide)

end Bundle

end ManifestBundle
