import ManifestBundle.Proofs.Files.Walk
import ManifestBundle.Proofs.Source.StandardInput

/-!
# Manifests in a directory

The manifest files in a directory are the files below it with names that say so
(`isManifestPath_iff`). Each is listed once, in the order of the paths, and is read as its name
ends: it is compressed if that is `.gz` (`isGzipPath_eq`).
-/

namespace ManifestBundle

/-! ## Names of manifest files -/

/-- The path ends as those of manifest files do, or of compressed ones if they are wanted. -/
def HasManifestEnding (withGzip : Bool) (path : String) : Prop :=
  Path.endsWith path ".yaml" = true ∨ Path.endsWith path ".yml" = true ∨
    withGzip = true ∧ (Path.endsWith path ".yaml.gz" = true ∨ Path.endsWith path ".yml.gz" = true)

variable {withGzip : Bool} {path : String}

/-- What stands in front of `.gz` ends in a text if the path ends in both. -/
theorem endsWith_dropEnd_iff (h : Path.endsWith path ".gz" = true) (ending : String) :
    Path.endsWith (path.dropEnd 3).toString ending = true ↔
      Path.endsWith path (ending ++ ".gz") = true := by
  obtain ⟨front, hfront⟩ := Path.endsWith_iff.1 h
  have hdrop : (path.dropEnd 3).toString.toList = front := by
    rw [String.Slice.toString_eq, String.toList_copy_dropEnd, ← hfront]
    simp
  rw [Path.endsWith_iff, Path.endsWith_iff, hdrop, ← hfront, String.toList_append,
    List.suffix_append_self_iff]

/-- The endings of compressed files are not those of others. -/
theorem not_endsWith_of_gz (h : Path.endsWith path ".gz" = true) :
    ¬ Path.endsWith path ".yaml" = true ∧ ¬ Path.endsWith path ".yml" = true := by
  rw [Path.endsWith_iff] at h
  simp only [Path.endsWith_iff]
  constructor
  · intro h'
    rcases List.suffix_or_suffix_of_suffix h h' with h | h <;> revert h <;> decide
  · intro h'
    rcases List.suffix_or_suffix_of_suffix h h' with h | h <;> revert h <;> decide

theorem endsWith_gz
    (h : Path.endsWith path ".yaml.gz" = true ∨ Path.endsWith path ".yml.gz" = true) :
    Path.endsWith path ".gz" = true := by
  simp only [Path.endsWith_iff] at h ⊢
  rcases h with h | h
  · exact .trans ⟨".yaml".toList, by decide⟩ h
  · exact .trans ⟨".yml".toList, by decide⟩ h

theorem isManifestPath_iff :
    isManifestPath withGzip path = true ↔ HasManifestEnding withGzip path := by
  rw [isManifestPath, HasManifestEnding]
  by_cases hgz : Path.endsWith path ".gz" = true
  · obtain ⟨hyaml, hyml⟩ := not_endsWith_of_gz hgz
    rw [if_pos hgz, Bool.and_eq_true, Bool.or_eq_true, endsWith_dropEnd_iff hgz,
      endsWith_dropEnd_iff hgz, or_iff_right hyaml, or_iff_right hyml]
    rfl
  · rw [if_neg hgz, Bool.or_eq_true]
    have hplain : ¬ (withGzip = true ∧
        (Path.endsWith path ".yaml.gz" = true ∨ Path.endsWith path ".yml.gz" = true)) :=
      fun h => hgz (endsWith_gz h.2)
    rw [or_iff_left hplain]

/-- A manifest file whose path ends in `.gz` is a compressed one that is wanted. -/
theorem HasManifestEnding.of_gz (h : HasManifestEnding withGzip path)
    (hgz : Path.endsWith path ".gz" = true) : withGzip = true ∧
      (Path.endsWith path ".yaml.gz" = true ∨ Path.endsWith path ".yml.gz" = true) := by
  obtain ⟨hyaml, hyml⟩ := not_endsWith_of_gz hgz
  exact (h.resolve_left hyaml).resolve_left hyml

/-- A manifest file is compressed if its path ends in `.gz`. -/
theorem isGzipPath_eq {directory name : String} (hname : Path.IsName name)
    (h : HasManifestEnding withGzip (Path.join directory name)) :
    Source.isGzipPath (Path.join directory name) =
      Path.endsWith (Path.join directory name) ".gz" := by
  rw [Bool.eq_iff_iff, Source.isGzipPath_iff, Source.HasGzipName, Path.fileName?_join hname]
  constructor
  · rintro ⟨stem, -, hstem⟩
    exact (Path.endsWith_join_iff (by decide) _ _).2 ⟨stem, (Option.some.inj hstem).symm⟩
  · intro hgz
    have h := (h.of_gz hgz).2
    rw [Path.endsWith_join_iff (by decide), Path.endsWith_join_iff (by decide)] at h
    rcases h with ⟨front, h⟩ | ⟨front, h⟩
    · exact ⟨front ++ ".yaml".toList, by simp, by rw [← h, List.append_assoc]; rfl⟩
    · exact ⟨front ++ ".yml".toList, by simp, by rw [← h, List.append_assoc]; rfl⟩

/-! ## The manifest files in a directory -/

namespace FileTree

variable {t : FileTree} {directory : String} {entries : List (String × FileNode)}
  {content : List UInt8}

/-- A manifest file in a directory is read as its path ends. -/
theorem text?_of_hasFile (hn : (FileNode.directory entries).IsWellNamed)
    (hfind : t.find? directory = some (.directory entries))
    (hfile : (FileNode.directory entries).HasFile directory path content)
    (h : HasManifestEnding withGzip path) (input : List UInt8) :
    (Source.file path).text? t input =
      if Path.endsWith path ".gz" then decompressText? content else decodeText? content := by
  have hread : t.read? path = some content := by
    rw [read?, find?_of_hasFile hn hfind hfile]
  obtain ⟨names, hat, rfl⟩ := hfile
  rcases List.eq_nil_or_concat names with rfl | ⟨front, name, rfl⟩
  · cases hat
  · have hname : Path.IsName name := (hn.of_at? hat).2 name (by simp)
    have hjoin : Path.descend directory (front.concat name) =
        Path.join (Path.descend directory front) name := by
      rw [Path.descend, List.concat_eq_append, List.foldl_append]
      rfl
    rw [hjoin] at hread h ⊢
    rw [Source.text?_file hread, isGzipPath_eq hname h]

/-- The manifest files in a directory are those below it whose paths end so. Each is listed once,
    in the order of the octets in the names on the way to it. They are read as their paths end; if
    compressed ones are not wanted, none is. -/
theorem manifestFiles?_of_directory (htree : t.root.IsWellNamed)
    (hdirectory : t.find? directory = some (.directory entries)) (withGzip : Bool) :
    ∃ paths, t.manifestFiles? directory withGzip = some paths ∧
      (∀ path, path ∈ paths ↔ HasManifestEnding withGzip path ∧
        ∃ content, (FileNode.directory entries).HasFile directory path content) ∧
      paths.Nodup ∧ paths.Pairwise (fun p q => Path.octets p < Path.octets q) ∧
      (∀ path ∈ paths, ∀ content, (FileNode.directory entries).HasFile directory path content →
        ∀ input, (Source.file path).text? t input =
          if Path.endsWith path ".gz" then decompressText? content else decodeText? content) ∧
      (withGzip = false → ∀ path ∈ paths, Path.endsWith path ".gz" = false) := by
  have hn : (FileNode.directory entries).IsWellNamed := by
    obtain ⟨place, -, hplace⟩ := find?_eq_some_iff.1 hdirectory
    exact (htree.of_at? hplace).1
  set paths := ((FileNode.directory entries).filePaths directory).filter (isManifestPath withGzip)
    with hpaths
  have hwalk : t.manifestFiles? directory withGzip = some paths := by
    rw [manifestFiles?, filesBelow?_of_directory hdirectory, Option.map_some]
  have hmem (path : String) : path ∈ paths ↔ HasManifestEnding withGzip path ∧
      ∃ content, (FileNode.directory entries).HasFile directory path content := by
    rw [hpaths, List.mem_filter, isManifestPath_iff, FileNode.mem_filePaths_iff hn, and_comm]
  have hsorted : paths.Pairwise fun p q => Path.octets p < Path.octets q :=
    (FileNode.pairwise_filePaths hn directory).filter _
  refine ⟨paths, hwalk, hmem, hsorted.imp ?_, hsorted, ?_, ?_⟩
  · rintro p _ hlt rfl
    exact List.lt_irrefl _ hlt
  · intro path hpath content hfile input
    exact text?_of_hasFile hn hdirectory hfile ((hmem path).1 hpath).1 input
  · intro hplain path hpath
    rw [Bool.eq_false_iff]
    intro hgz
    have hwanted : withGzip = true := (((hmem path).1 hpath).1.of_gz hgz).1
    exact absurd (hplain.symm.trans hwanted) Bool.false_ne_true

/-- A manifest in a compressed file. -/
def packedManifest : List UInt8 :=
  Gzip.storedMember "kind: C\n".toUTF8.toList

/-- Entries of a directory: manifest files, a directory that a manifest file follows, and a link and
    a directory that are named as manifest files. -/
def mixedEntries : List (String × FileNode) :=
  [("b.yml", .file []),
    ("a", .directory [("d.yaml", .directory []), ("c.yaml.gz", .file packedManifest)]),
    ("a-1.yaml", .file []), ("l.yaml", .link "a-1.yaml"), ("notes", .file [])]

/-- A tree in which a link leads to the directory of these entries. -/
def mixedTree : FileTree :=
  ⟨.directory [("k", .link "m/x"), ("m", .directory [("x", .directory mixedEntries)])]⟩

theorem isWellNamed_mixedEntries : (FileNode.directory mixedEntries).IsWellNamed := by
  refine .directory (by decide) (by decide) ?_
  simp only [mixedEntries, List.forall_mem_cons]
  refine ⟨.file, .directory (by decide) (by decide) ?_, .file, .link, .file, List.forall_mem_nil _⟩
  simp only [List.forall_mem_cons]
  exact ⟨.directory (by decide) (by decide) (List.forall_mem_nil _), .file, List.forall_mem_nil _⟩

theorem filePaths_mixedEntries :
    (FileNode.directory mixedEntries).filePaths "k/" =
      ["k/a/c.yaml.gz", "k/a-1.yaml", "k/b.yml", "k/notes"] := by
  have hpaths : (FileNode.directory mixedEntries).filePaths "k/" =
      [Path.join (Path.join "k/" "a") "c.yaml.gz", Path.join "k/" "a-1.yaml",
        Path.join "k/" "b.yml", Path.join "k/" "notes"] := by
    simp [FileNode.filePaths, FileNode.entryPaths, mixedEntries, List.mergeSort,
      List.MergeSort.Internal.splitInTwo]
  rw [hpaths]
  decide +kernel

theorem manifestFiles?_mixedTree :
    mixedTree.root.IsWellNamed ∧
      mixedTree.find? "k/" = some (.directory mixedEntries) ∧
      mixedTree.manifestFiles? "k/" true = some ["k/a/c.yaml.gz", "k/a-1.yaml", "k/b.yml"] ∧
      Path.octets "k/a/c.yaml.gz" < Path.octets "k/a-1.yaml" ∧
      Path.octets "k/a-1.yaml" < Path.octets "k/b.yml" ∧
      (Source.file "k/a/c.yaml.gz").text? mixedTree [] = some "kind: C\n" := by
  have htree : mixedTree.root.IsWellNamed := by
    refine .directory (by decide) (by decide) ?_
    simp only [List.forall_mem_cons]
    refine ⟨.link, .directory (by decide) (by decide) ?_, List.forall_mem_nil _⟩
    simp only [List.forall_mem_cons]
    exact ⟨isWellNamed_mixedEntries, List.forall_mem_nil _⟩
  have hdirectory : mixedTree.find? "k/" = some (.directory mixedEntries) := by
    rfl
  have hlist :
      mixedTree.manifestFiles? "k/" true = some ["k/a/c.yaml.gz", "k/a-1.yaml", "k/b.yml"] := by
    rw [manifestFiles?, filesBelow?_of_directory hdirectory, filePaths_mixedEntries]
    decide +kernel
  obtain ⟨paths, hpaths, -, -, hsorted, htext, -⟩ :=
    manifestFiles?_of_directory htree hdirectory true
  obtain rfl := Option.some.inj (hpaths.symm.trans hlist)
  refine ⟨htree, hdirectory, hlist, ?_, ?_, ?_⟩
  · exact List.rel_of_pairwise_cons hsorted (by simp)
  · exact List.rel_of_pairwise_cons hsorted.of_cons (by simp)
  · rw [htext "k/a/c.yaml.gz" (by simp) packedManifest
      ⟨["a", "c.yaml.gz"], rfl, by decide +kernel⟩]
    decide +kernel

end FileTree

end ManifestBundle
