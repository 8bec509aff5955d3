import ManifestBundle.Config.File
import ManifestBundle.Proofs.Files.Write
import ManifestBundle.Proofs.Source.Encoding
import ManifestBundle.Proofs.Toml.Table

/-!
# Settings that are saved can be loaded

The document of settings is lines of TOML, with the table of required keys behind all other
settings (`lines_text`), and is read as the settings that it was written for: no setting falls
back to its usual value (`parse?_text`). What has been saved at a path is read from it, so
loading gives the settings that were saved (`loadFrom_save?`).
-/

namespace ManifestBundle.Config

open Toml

/-- The keys and values in front of the table of required keys. -/
def pairs (c : Config) : List (String × Toml.Value) :=
  [("label_match", .text c.labelMatch.name), ("output", .text c.output.name),
    ("fail_fast", .bool c.failFast), ("include_gzip", .bool c.includeGzip),
    ("builtin_schema", .bool c.builtinSchema)]

/-- The table of required keys. -/
def requiredPairs (c : Config) : List (String × Toml.Value) :=
  c.requiredKeys.map fun r => (r.1, .array (r.2.map .text))

theorem writes_boolText (b : Bool) : Writes (boolText b) (.bool b) := by
  cases b with
  | false => exact writes_false
  | true => exact writes_true

/-- Every rule is written on a line of its own. -/
theorem lines_requiredKeys (rs : List (String × List String)) :
    Lines (rs.flatMap fun (key, texts) => printPair key (printTexts texts))
      (Expression.ofPairs (rs.map fun r => (r.1, .array (r.2.map .text)))) := by
  induction rs with
  | nil => exact .nil
  | cons r rs ih => exact .pair (writes_printTexts r.2) ih

/-- The document of settings has them in front of the table of required keys. -/
theorem lines_text (c : Config) :
    Lines c.text.toList (Expression.ofPairs c.pairs ++
      .header ["required_keys"] :: Expression.ofPairs c.requiredPairs) := by
  have hheader (rest : List Char) : "\n[required_keys]\n".toList ++ rest =
      '\n' :: '[' :: (printKey "required_keys" ++ ']' :: '\n' :: rest) := by
    have hkey : printKey "required_keys" = "required_keys".toList := by decide
    rw [hkey]
    rfl
  rw [text, String.toList_ofList]
  simp only [List.append_assoc, hheader]
  exact .pair (writes_printText _) <| .pair (writes_printText _) <| .pair (writes_boolText _) <|
    .pair (writes_boolText _) <| .pair (writes_boolText _) <| .header (lines_requiredKeys _)

theorem labelMatchOf?_name (m : LabelMatch) : labelMatchOf? (.text m.name) = some m := by
  cases m <;> rfl

theorem outputOf?_name (f : OutputFormat) : outputOf? (.text f.name) = some f := by
  cases f <;> rfl

/-- Members that are each read back as they were are read back together. -/
theorem mapM_map_eq_some {α β : Type} {f : α → β} {g : β → Option α} (h : ∀ a, g (f a) = some a)
    (as : List α) : (as.map f).mapM g = some as := by
  have hid : g ∘ f = fun a => pure (id a) := funext h
  rw [List.mapM_map, hid, List.mapM_pure, List.map_id]
  rfl

theorem requiredKeysOf?_pairs (c : Config) :
    requiredKeysOf? (.table c.requiredPairs) = some c.requiredKeys := by
  have htexts (texts : List String) : textsOf? (.array (texts.map .text)) = some texts :=
    mapM_map_eq_some (g := textOf?) (fun _ => rfl) texts
  refine mapM_map_eq_some (fun r => ?_) c.requiredKeys
  simp only [htexts, Option.map_some]

/-- The document of settings is read as them. -/
theorem parse?_text (c : Config) (h : (c.requiredKeys.map Prod.fst).Nodup) :
    parse? c.text = some c := by
  have hpairs : (c.pairs.map Prod.fst ++ ["required_keys"]).Nodup := by
    have hkeys : c.pairs.map Prod.fst =
        ["label_match", "output", "fail_fast", "include_gzip", "builtin_schema"] := rfl
    rw [hkeys]
    decide
  have hrequired : (c.requiredPairs.map Prod.fst).Nodup := by
    rw [requiredPairs, List.map_map]
    exact h
  rw [parse?, parse?_of_lines c.lines_text hpairs hrequired]
  simp [setting?, pairs, List.lookup_cons, labelMatchOf?_name, outputOf?_name, boolOf?,
    requiredKeysOf?_pairs]

/-- Settings that have been saved are loaded as they were. -/
theorem loadFrom_save? {files saved : FileTree} {path : String} {c : Config}
    (hkeys : (c.requiredKeys.map Prod.fst).Nodup) (h : save? files path c = some saved) :
    loadFrom saved path = .ok c := by
  have hread : saved.read? path = some c.text.toUTF8.toList := FileTree.read?_write? h
  have hdecode : decodeText? c.text.toUTF8.toList = some c.text := decodeText?_eq_some_iff.2 rfl
  rw [loadFrom, hread, Option.bind_some, hdecode]
  simp only [parse?_text c hkeys]

/-- A key that needs quotes and escapes, with paths over several lines and without any. -/
theorem loadFrom_save?_of_quotes :
    let c : Config :=
      { labelMatch := .exact
        failFast := false
        requiredKeys := [("apps/v1\"\x07", ["spec.\"a.b\"", "two\nlines\\", ""]), ("", [])] }
    let saved : FileTree :=
      ⟨.directory [("etc", .directory [("config.toml", .file c.text.toUTF8.toList)])]⟩
    (c.requiredKeys.map Prod.fst).Nodup ∧ save? {} "etc/config.toml" c = some saved ∧
      loadFrom saved "etc/config.toml" = .ok c := by
  intro c saved
  have hkeys : (c.requiredKeys.map Prod.fst).Nodup := by decide
  have hsaved : save? {} "etc/config.toml" c = some saved := rfl
  exact ⟨hkeys, hsaved, loadFrom_save? hkeys hsaved⟩

end ManifestBundle.Config
