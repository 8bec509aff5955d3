import ManifestBundle.Files.Walk
import ManifestBundle.Proofs.Files.Place
import ManifestBundle.Proofs.Lists
import ManifestBundle.Proofs.Source.Encoding
import Mathlib.Data.String.Basic

/-!
# Walking a directory

A directory is walked in the order of its names. If these are different, and so below it
(`FileNode.IsWellNamed`), the files below it are listed at the paths that lead to them through
directories (`FileNode.mem_filePaths_iff`), in the order of the octets of the names on the way
(`FileNode.pairwise_filePaths`). Each of these paths is one that its file is found at
(`FileTree.find?_of_hasFile`).
-/

namespace ManifestBundle

/-! ## Paths below a directory -/

namespace Path

variable {names names' : List String} {m n : String}

/-- The path of what names lead to from a directory. -/
def descend (directory : String) (names : List String) : String :=
  names.foldl join directory

/-- The octets of the names in a path, by which paths are ordered. -/
def octets (path : String) : List (List UInt8) :=
  (components path).map fun name => name.toUTF8.toList

/-- Going down a way of names adds them to the components. -/
theorem components_descend (h : ∀ name ∈ names, IsName name) (directory : String) :
    components (descend directory names) = components directory ++ names := by
  induction names generalizing directory with
  | nil => exact (List.append_nil _).symm
  | cons name names ih =>
    obtain ⟨hname, hnames⟩ := List.forall_mem_cons.1 h
    rw [descend, List.foldl_cons, ← descend, ih hnames, components_join hname, List.append_assoc,
      List.singleton_append]

/-- Ways that part are ordered by the names where they do. -/
theorem octets_descend_lt (hm : IsName m) (hnames : ∀ name ∈ names, IsName name) (hn : IsName n)
    (hnames' : ∀ name ∈ names', IsName name) (h : m < n) (directory : String) :
    octets (descend (join directory m) names) < octets (descend (join directory n) names') := by
  simp only [octets, components_descend hnames, components_descend hnames', components_join hm,
    components_join hn, List.map_append, List.append_assoc]
  exact List.append_left_lt (List.cons_lt_cons_iff.2 (.inl (toUTF8_lt h)))

end Path

/-! ## What is listed -/

namespace FileNode

variable {n m : FileNode} {entries : List (String × FileNode)} {names : List String}
  {path p : String}

/-- In every directory the entries have different names that entries can have. -/
inductive IsWellNamed : FileNode → Prop
  | file {content : List UInt8} : IsWellNamed (.file content)
  | link {target : String} : IsWellNamed (.link target)
  | directory {entries : List (String × FileNode)} (hnodup : (entries.map Prod.fst).Nodup)
      (hnames : ∀ e ∈ entries, Path.IsName e.1) (hentries : ∀ e ∈ entries, IsWellNamed e.2) :
      IsWellNamed (.directory entries)

/-- What is at a place is in the entries of a directory. -/
theorem at?_cons_eq_some_iff {name : String} :
    n.at? (name :: names) = some m ↔
      ∃ entries, n = .directory entries ∧ ∃ child, entries.lookup name = some child ∧
        child.at? names = some m := by
  cases n with
  | file content => simp [at?, child?]
  | link target => simp [at?, child?]
  | directory entries => simp [at?, child?, Option.bind_eq_some_iff]

/-- All that is below a well-named directory is well-named, and so are the ways to it. -/
theorem IsWellNamed.of_at? (h : n.IsWellNamed) (hm : n.at? names = some m) :
    m.IsWellNamed ∧ ∀ name ∈ names, Path.IsName name := by
  induction names generalizing n with
  | nil =>
    obtain rfl : n = m := Option.some.inj hm
    exact ⟨h, List.forall_mem_nil _⟩
  | cons name names ih =>
    obtain ⟨entries, rfl, child, hchild, hm⟩ := at?_cons_eq_some_iff.1 hm
    cases h with
    | directory hnodup hnames hentries =>
      have hmem := (List.lookup_eq_some_iff_mem hnodup).1 hchild
      obtain ⟨hwell, hrest⟩ := ih (hentries _ hmem) hm
      exact ⟨hwell, List.forall_mem_cons.2 ⟨hnames _ hmem, hrest⟩⟩

/-- Names lead from the entry, which is at a path, through directories to a file with the content,
    which is at another path. -/
def HasFile (n : FileNode) (directory path : String) (content : List UInt8) : Prop :=
  ∃ names, n.at? names = some (.file content) ∧ path = Path.descend directory names

/-- Entries in the order of their names. -/
def byName (entries : List (String × FileNode)) : List (String × FileNode) :=
  entries.mergeSort fun e f => e.1 ≤ f.1

theorem mem_byName_iff {e : String × FileNode} : e ∈ byName entries ↔ e ∈ entries :=
  (List.mergeSort_perm entries _).mem_iff

/-- Entries are sorted by their names, which differ. -/
theorem pairwise_byName (h : (entries.map Prod.fst).Nodup) :
    (byName entries).Pairwise (·.1 < ·.1) := by
  have hperm : ((byName entries).map Prod.fst).Perm (entries.map Prod.fst) :=
    (List.mergeSort_perm entries _).map _
  have hdistinct : (byName entries).Pairwise (·.1 ≠ ·.1) :=
    List.pairwise_map.1 (hperm.nodup_iff.2 h)
  have hsorted : (byName entries).Pairwise fun e f => decide (e.1 ≤ f.1) = true :=
    List.pairwise_mergeSort
      (fun e f g hef hfg => decide_eq_true <|
        (of_decide_eq_true hef : e.1 ≤ f.1).trans (of_decide_eq_true hfg))
      (fun e f => by simpa using le_total e.1 f.1) entries
  exact (hsorted.and hdistinct).imp fun ⟨hle, hne⟩ => lt_of_le_of_ne (of_decide_eq_true hle) hne

theorem entryPaths_eq (path : String) (entries : List (String × FileNode)) :
    entryPaths path entries = entries.map fun e => (e.1, e.2.filePaths (Path.join path e.1)) := by
  induction entries with
  | nil => rw [entryPaths, List.map_nil]
  | cons e entries ih => rw [entryPaths, List.map_cons, ih]

/-- The files below a directory are those below its entries, by their names. -/
theorem filePaths_directory (path : String) (entries : List (String × FileNode)) :
    (directory entries).filePaths path =
      (byName entries).flatMap fun e => e.2.filePaths (Path.join path e.1) := by
  have hsort := List.map_mergeSort (l := entries) (r := fun e f => decide (e.1 ≤ f.1))
    (s := fun e f => decide (e.1 ≤ f.1))
    (f := fun e => (e.1, e.2.filePaths (Path.join path e.1))) fun _ _ _ _ => rfl
  calc (directory entries).filePaths path
    _ = ((entries.map fun e => (e.1, e.2.filePaths (Path.join path e.1))).mergeSort
          fun e f => decide (e.1 ≤ f.1)).flatMap Prod.snd := by
      rw [filePaths, entryPaths_eq]
    _ = ((byName entries).map fun e => (e.1, e.2.filePaths (Path.join path e.1))).flatMap
          Prod.snd := by
      rw [byName, hsort]
    _ = (byName entries).flatMap fun e => e.2.filePaths (Path.join path e.1) := List.flatMap_map ..

/-- The files that are listed are those that names lead to through directories. -/
theorem mem_filePaths_iff (h : n.IsWellNamed) :
    p ∈ n.filePaths path ↔ ∃ content, n.HasFile path p content := by
  induction h generalizing path p with
  | @file content =>
    rw [filePaths, List.mem_singleton]
    constructor
    · rintro rfl
      exact ⟨content, [], rfl, rfl⟩
    · rintro ⟨content, names, hfile, rfl⟩
      cases names with
      | nil => rfl
      | cons name names => cases hfile
  | link =>
    rw [filePaths]
    refine iff_of_false List.not_mem_nil ?_
    rintro ⟨content, names, hfile, -⟩
    cases names with
    | nil => cases hfile
    | cons name names => cases hfile
  | @directory entries hnodup hnames hentries ih =>
    simp only [filePaths_directory, List.mem_flatMap, mem_byName_iff]
    constructor
    · rintro ⟨e, he, hp⟩
      obtain ⟨content, names, hfile, rfl⟩ := (ih e he).1 hp
      exact ⟨content, e.1 :: names, at?_cons_eq_some_iff.2
        ⟨entries, rfl, e.2, (List.lookup_eq_some_iff_mem hnodup).2 he, hfile⟩, rfl⟩
    · rintro ⟨content, names, hfile, rfl⟩
      cases names with
      | nil => cases hfile
      | cons name names =>
        obtain ⟨_, ⟨⟩, child, hchild, hfile⟩ := at?_cons_eq_some_iff.1 hfile
        have hmem := (List.lookup_eq_some_iff_mem hnodup).1 hchild
        exact ⟨(name, child), hmem, (ih _ hmem).2 ⟨content, names, hfile, rfl⟩⟩

/-- Files are listed in the order of their paths. -/
theorem pairwise_filePaths (h : n.IsWellNamed) (path : String) :
    (n.filePaths path).Pairwise fun p q => Path.octets p < Path.octets q := by
  induction h generalizing path with
  | file =>
    rw [filePaths]
    exact List.pairwise_singleton _ _
  | link =>
    rw [filePaths]
    exact .nil
  | @directory entries hnodup hnames hentries ih =>
    rw [filePaths_directory, List.pairwise_flatMap]
    refine ⟨fun e he => ih e (mem_byName_iff.1 he) _, ?_⟩
    refine (pairwise_byName hnodup).imp_of_mem fun {e f} he hf hlt p hp q hq => ?_
    have he := mem_byName_iff.1 he
    have hf := mem_byName_iff.1 hf
    obtain ⟨_, ms, hms, rfl⟩ := (mem_filePaths_iff (hentries e he)).1 hp
    obtain ⟨_, ns, hns, rfl⟩ := (mem_filePaths_iff (hentries f hf)).1 hq
    exact Path.octets_descend_lt (hnames e he) ((hentries e he).of_at? hms).2 (hnames f hf)
      ((hentries f hf).of_at? hns).2 hlt path

end FileNode

/-! ## Finding what is listed -/

namespace FileTree

variable {t : FileTree} {n : FileNode} {entries : List (String × FileNode)} {directory : String}
  {content : List UInt8}

theorem filesBelow?_of_directory (h : t.find? directory = some (.directory entries)) :
    t.filesBelow? directory = some ((FileNode.directory entries).filePaths directory) := by
  obtain ⟨entry, hentry, hcases⟩ := entry?_of_find? h
  rw [filesBelow?, hentry]
  rcases hcases with rfl | ⟨target, rfl⟩
  · rfl
  · simp [h, FileNode.isDirectory]

/-- A file below a directory is found at its path. -/
theorem find?_of_hasFile {path : String} (hn : n.IsWellNamed) (hfind : t.find? directory = some n)
    (h : n.HasFile directory path content) : t.find? path = some (.file content) := by
  obtain ⟨names, hfile, rfl⟩ := h
  induction names generalizing n directory with
  | nil => exact hfind.trans hfile
  | cons name names ih =>
    obtain ⟨entries, rfl, child, hchild, hfile⟩ := FileNode.at?_cons_eq_some_iff.1 hfile
    obtain ⟨here, hplace, hhere⟩ := find?_eq_some_iff.1 hfind
    have hentry : t.root.at? (here ++ [name]) = some child := by
      rw [FileNode.at?_append, hhere, Option.bind_some, FileNode.at?_cons_eq_some_iff]
      exact ⟨entries, rfl, child, hchild, rfl⟩
    cases hn with
    | directory hnodup hnames hentries =>
      have hmem := (List.lookup_eq_some_iff_mem hnodup).1 hchild
      refine ih (hentries _ hmem) (find?_eq_some_iff.2 ⟨here ++ [name], ?_, hentry⟩) hfile
      have hdirectory : HasDirectory t.root here := by
        simp [HasDirectory, hhere, FileNode.isDirectory]
      refine place?_join (hnames _ hmem) hplace hdirectory hentry ?_
      -- Nothing is below a link, nor is a link a file.
      rintro target rfl
      cases names <;> cases hfile

end FileTree

end ManifestBundle
