import ManifestBundle.Files.Tree
import ManifestBundle.Proofs.Lists

/-!
# Files that are written can be read

Putting a file where there was a file or nothing leaves every other entry the kind that it
was: a directory stays one, and a link leads where it led (`FileNode.alike_of_put?`). So the
steps of a path lead to the same place afterwards (`FileTree.follow?_of_filePlace?`), and the
file that has been written there is the one that the path is read from
(`FileTree.read?_write?`).
-/

namespace ManifestBundle

namespace FileNode

/-- Entries that paths lead through alike. -/
inductive Alike : FileNode → FileNode → Prop
  | file {content content' : List UInt8} : Alike (.file content) (.file content')
  | directory {entries entries' : List (String × FileNode)} :
      Alike (.directory entries) (.directory entries')
  | link {target : String} : Alike (.link target) (.link target)

theorem Alike.refl (n : FileNode) : n.Alike n := by
  cases n with
  | file content => exact .file
  | directory entries => exact .directory
  | link target => exact .link

/-- A directory stays a directory. -/
theorem Alike.isDirectory_eq {n n' : FileNode} (h : n.Alike n') :
    n'.isDirectory = n.isDirectory := by
  cases h <;> rfl

/-- An entry that is set is found, and the others are as they have been. -/
theorem lookup_setEntry (name m : String) (n : FileNode) (entries : List (String × FileNode)) :
    (setEntry name n entries).lookup m = if m = name then some n else entries.lookup m := by
  induction entries with
  | nil => rw [setEntry, List.lookup_cons_eq_ite]
  | cons e entries ih =>
    obtain ⟨k, o⟩ := e
    rw [setEntry]
    by_cases hk : k = name
    · subst hk
      rw [if_pos rfl, List.lookup_cons_eq_ite, List.lookup_cons_eq_ite]
      split_ifs <;> rfl
    · rw [if_neg hk, List.lookup_cons_eq_ite, List.lookup_cons_eq_ite, ih]
      by_cases hm : m = k
      · rw [if_pos hm, if_pos hm, if_neg (hm ▸ hk)]
      · rw [if_neg hm, if_neg hm]

variable {root root' new : FileNode} {place : List String}

/-- An entry is put below a name into what the directory has there; there may be nothing if
    it is put right there. -/
theorem exists_of_put?_cons {name : String} {names : List String}
    (h : put? new (name :: names) root = some root') :
    ∃ entries old child, root = .directory entries ∧
      root' = .directory (setEntry name child entries) ∧ put? new names old = some child ∧
      (entries.lookup name = some old ∨ entries.lookup name = none ∧ names = []) := by
  cases root with
  | file content => nomatch h
  | link target => nomatch h
  | directory entries =>
    cases names with
    | nil =>
      obtain rfl : directory (setEntry name new entries) = root' := Option.some.inj h
      cases hold : entries.lookup name with
      | none => exact ⟨entries, new, new, rfl, rfl, rfl, .inr ⟨hold, rfl⟩⟩
      | some old => exact ⟨entries, old, new, rfl, rfl, rfl, .inl hold⟩
    | cons m names =>
      cases hold : entries.lookup name with
      | none => simp [put?, hold] at h
      | some old =>
        simp only [put?, hold, Option.bind_eq_bind, Option.pure_def, Option.bind_eq_some_iff,
          Option.some.injEq] at h
        obtain ⟨child, hchild, rfl⟩ := h
        exact ⟨entries, old, child, rfl, rfl, hchild, .inl hold⟩

/-- What has been put at a place is there. -/
theorem at?_of_put? (h : put? new place root = some root') : root'.at? place = some new := by
  induction place generalizing root root' with
  | nil => exact h.symm
  | cons name names ih =>
    obtain ⟨entries, old, child, rfl, rfl, hchild, -⟩ := exists_of_put?_cons h
    rw [at?, child?, lookup_setEntry, if_pos rfl, Option.bind_some, ih hchild]

/-- A file takes the place of a file or of nothing: every entry stays as it was for paths. -/
theorem alike_of_put? {content : List UInt8} {p : List String} {n : FileNode}
    (h : put? (.file content) place root = some root')
    (hplace : (root.at? place).all isFile = true) (hp : root.at? p = some n) :
    ∃ n', root'.at? p = some n' ∧ n.Alike n' := by
  induction place generalizing root root' p with
  | nil =>
    obtain rfl : FileNode.file content = root' := Option.some.inj h
    cases root with
    | directory entries => nomatch hplace
    | link target => nomatch hplace
    | file old =>
      cases p with
      | nil =>
        obtain rfl : FileNode.file old = n := Option.some.inj hp
        exact ⟨_, rfl, .file⟩
      | cons m ms => nomatch hp
  | cons name names ih =>
    obtain ⟨entries, old, child, rfl, rfl, hchild, hold⟩ := exists_of_put?_cons h
    cases p with
    | nil =>
      obtain rfl : FileNode.directory entries = n := Option.some.inj hp
      exact ⟨_, rfl, .directory⟩
    | cons m ms =>
      rw [at?, child?] at hp ⊢
      rw [lookup_setEntry]
      by_cases hm : m = name
      · subst hm
        rcases hold with hold | ⟨hnone, -⟩
        · rw [hold, Option.bind_some] at hp
          rw [at?, child?, hold, Option.bind_some] at hplace
          rw [if_pos rfl, Option.bind_some]
          exact ih hchild hplace hp
        · rw [hnone] at hp
          nomatch hp
      · rw [if_neg hm]
        exact ⟨n, hp, .refl n⟩

end FileNode

namespace FileTree

variable {root root' : FileNode} {place : List String} {content : List UInt8}

section Walk

variable {onLink onLink' : List String → List Step → Option (List String)}
  {here : List String} {rest : List Step}

theorem walk?_stay (h : (root.at? here).any FileNode.isDirectory = true) :
    walk? root onLink here (.stay :: rest) = walk? root onLink here rest := by
  simp [walk?, h]

theorem walk?_up (h : (root.at? here).any FileNode.isDirectory = true) :
    walk? root onLink here (.up :: rest) = walk? root onLink here.dropLast rest := by
  simp [walk?, h]

/-- A way goes on in an entry that is no link. -/
theorem walk?_down {name : String} {n : FileNode}
    (h : (root.at? here).any FileNode.isDirectory = true)
    (hn : root.at? (here ++ [name]) = some n) (hlink : ∀ target, n ≠ .link target) :
    walk? root onLink here (.down name :: rest) = walk? root onLink (here ++ [name]) rest := by
  cases n with
  | link target => exact absurd rfl (hlink target)
  | file content => simp [walk?, h, hn]
  | directory entries => simp [walk?, h, hn]

/-- A way goes on along the target of a link, from the directory that the link is in. -/
theorem walk?_link {name target : String} {steps : List Step}
    (h : (root.at? here).any FileNode.isDirectory = true)
    (hlink : root.at? (here ++ [name]) = some (.link target))
    (hsteps : steps? target = some steps) :
    walk? root onLink here (.down name :: rest) = onLink (start target here) (steps ++ rest) := by
  simp [walk?, h, hlink, hsteps]

/-- The way to a file that has been written is still there, and leads to its place. -/
theorem walk?_of_walkToFile? {steps : List Step}
    (hput : FileNode.put? (.file content) place root = some root')
    (hplace : (root.at? place).all FileNode.isFile = true)
    (honLink : ∀ {here steps}, onLink here steps = some place → onLink' here steps = some place)
    (h : walkToFile? root onLink here steps = some place) :
    walk? root' onLink' here steps = some place := by
  have halike {p : List String} {n : FileNode} (hp : root.at? p = some n) :
      ∃ n', root'.at? p = some n' ∧ n.Alike n' := FileNode.alike_of_put? hput hplace hp
  induction steps generalizing here with
  | nil => nomatch h
  | cons step rest ih =>
    simp only [walkToFile?, Option.ite_none_right_eq_some] at h
    obtain ⟨hhere, h⟩ := h
    have hhere' : (root'.at? here).any FileNode.isDirectory = true := by
      obtain ⟨n, hn, hdirectory⟩ := (Option.any_eq_true _ _).1 hhere
      obtain ⟨n', hn', halike⟩ := halike hn
      exact (Option.any_eq_true _ _).2 ⟨n', hn', halike.isDirectory_eq.trans hdirectory⟩
    cases step with
    | stay =>
      rw [walk?_stay hhere']
      exact ih h
    | up =>
      rw [walk?_up hhere']
      exact ih h
    | down name =>
      cases hnext : root.at? (here ++ [name]) with
      | none =>
        -- Only the file that has been written can have been missing.
        cases rest with
        | nil =>
          obtain rfl : here ++ [name] = place := by simpa [hnext] using h
          exact walk?_down hhere' (FileNode.at?_of_put? hput) (by simp)
        | cons step rest => simp [hnext] at h
      | some n =>
        have hon (hlink : ∀ target, n ≠ .link target) :
            walk? root' onLink' (here ++ [name]) rest = some place := by
          cases rest with
          | nil => cases n <;> simp_all [walk?]
          | cons step rest => exact ih (by cases n <;> simp_all)
        obtain ⟨n', hnext', halike⟩ := halike hnext
        cases halike with
        | file => rw [walk?_down hhere' hnext' (by simp), hon (by simp)]
        | directory => rw [walk?_down hhere' hnext' (by simp), hon (by simp)]
        | link =>
          simp only [hnext, Option.bind_eq_bind, Option.bind_eq_some_iff] at h
          obtain ⟨steps, hsteps, h⟩ := h
          rw [walk?_link hhere' hnext' hsteps]
          exact honLink h

end Walk

/-- A way to a file is followed to the place that the file has been put at. -/
theorem follow?_of_filePlace? {links : Nat} {here : List String} {steps : List Step}
    (hput : FileNode.put? (.file content) place root = some root')
    (hplace : (root.at? place).all FileNode.isFile = true)
    (h : filePlace? root links here steps = some place) :
    follow? root' links here steps = some place := by
  induction links generalizing here steps with
  | zero => nomatch h
  | succ links ih => exact walk?_of_walkToFile? hput hplace ih h

/-- What has been written to a path is read from it. -/
theorem read?_write? {t t' : FileTree} {path : String} (h : t.write? path content = some t') :
    t'.read? path = some content := by
  simp only [write?, Option.bind_eq_bind, Option.bind_eq_some_iff, Option.pure_def, Prod.exists,
    Option.bind_none, Option.ite_none_left_eq_some, Option.some.injEq] at h
  obtain ⟨steps, hsteps, made, _, -, place, hplace, hfile, root', hput, rfl⟩ := h
  have hall : (made.root.at? place).all FileNode.isFile = true := by
    cases hn : made.root.at? place <;> simp_all
  have hfollow := follow?_of_filePlace? hput hall hplace
  have hfind : find? ⟨root'⟩ path = some (.file content) := by
    simp [find?, place?, hsteps, hfollow, FileNode.at?_of_put? hput]
  rw [read?, hfind]

end FileTree

end ManifestBundle
