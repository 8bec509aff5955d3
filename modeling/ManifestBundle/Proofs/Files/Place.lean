import ManifestBundle.Proofs.Files.Path
import ManifestBundle.Proofs.Files.Write

/-!
# Places of entries

Steps lead from a place to another through a number of links (`FileTree.Leads`), and they are
followed there if the number is allowed (`FileTree.follow?_eq_some_iff`). A way can be cut
anywhere (`FileTree.Leads.exists_of_append`), so its last step can be looked at alone: the entry
at the end of a path is the one that the path leads to, unless it is a link
(`FileTree.entry?_of_find?`), and an entry of a directory that is no link is found at the path
that joins the two (`FileTree.place?_join`).
-/

namespace ManifestBundle

/-! ## Entries below an entry -/

namespace FileNode

/-- What is at a place below a place is found in two parts. -/
theorem at?_append (n : FileNode) (names names' : List String) :
    n.at? (names ++ names') = (n.at? names).bind (·.at? names') := by
  induction names generalizing n with
  | nil => rfl
  | cons name names ih =>
    rw [List.cons_append, at?, at?]
    cases n.child? name with
    | none => rfl
    | some child => exact ih child

end FileNode

namespace FileTree

variable {root n : FileNode} {here mid place : List String} {name : String}
  {steps steps' : List Step} {k links : Nat}

/-! ## Ways -/

/-- There is a directory at the place. -/
def HasDirectory (root : FileNode) (place : List String) : Prop :=
  (root.at? place).any FileNode.isDirectory = true

/-- Steps lead from a place to another through a number of links. Every step starts from a
    directory, and the target of a link from the directory that the link is in. -/
inductive Leads (root : FileNode) : Nat → List String → List Step → List String → Prop
  | nil {here : List String} : Leads root 0 here [] here
  | stay {k : Nat} {here place : List String} {steps : List Step} :
      HasDirectory root here → Leads root k here steps place →
        Leads root k here (.stay :: steps) place
  | up {k : Nat} {here place : List String} {steps : List Step} :
      HasDirectory root here → Leads root k here.dropLast steps place →
        Leads root k here (.up :: steps) place
  | down {k : Nat} {here place : List String} {steps : List Step} {name : String}
      {n : FileNode} :
      HasDirectory root here → root.at? (here ++ [name]) = some n → (∀ target, n ≠ .link target) →
        Leads root k (here ++ [name]) steps place → Leads root k here (.down name :: steps) place
  | link {k : Nat} {here place : List String} {steps way : List Step} {name target : String} :
      HasDirectory root here → root.at? (here ++ [name]) = some (.link target) →
        steps? target = some way → Leads root k (start target here) (way ++ steps) place →
          Leads root (k + 1) here (.down name :: steps) place

/-- A way of steps is followed if the links on it are allowed for. -/
theorem follow?_of_leads (h : Leads root k here steps place) (hk : k < links) :
    follow? root links here steps = some place := by
  obtain ⟨links, rfl⟩ := Nat.exists_eq_succ_of_ne_zero (Nat.ne_zero_of_lt hk)
  induction h generalizing links with
  | nil => rfl
  | stay hhere _ ih => exact (walk?_stay hhere).trans (ih links hk)
  | up hhere _ ih => exact (walk?_up hhere).trans (ih links hk)
  | down hhere hn hlink _ ih => exact (walk?_down hhere hn hlink).trans (ih links hk)
  | link hhere hn hway _ ih =>
    cases links with
    | zero => exact absurd hk (by omega)
    | succ links => exact (walk?_link hhere hn hway).trans (ih links (by omega))

/-- What has been followed is a way of steps, with fewer links than are allowed for. -/
theorem leads_of_follow? (h : follow? root links here steps = some place) :
    ∃ k < links, Leads root k here steps place := by
  -- A link may put more steps in its place than there were, but then one link less is allowed.
  induction links generalizing here steps with
  | zero => nomatch h
  | succ links ihlinks =>
    induction steps generalizing here with
    | nil =>
      obtain rfl : here = place := Option.some.inj h
      exact ⟨0, Nat.succ_pos links, .nil⟩
    | cons step steps ih =>
      have hhere : HasDirectory root here := by
        by_contra hnone
        rw [HasDirectory, Bool.not_eq_true] at hnone
        simp [follow?, walk?, hnone] at h
      cases step with
      | stay =>
        obtain ⟨k, hk, hleads⟩ := ih ((walk?_stay hhere).symm.trans h)
        exact ⟨k, hk, .stay hhere hleads⟩
      | up =>
        obtain ⟨k, hk, hleads⟩ := ih ((walk?_up hhere).symm.trans h)
        exact ⟨k, hk, .up hhere hleads⟩
      | down name =>
        cases hn : root.at? (here ++ [name]) with
        | none => simp [follow?, walk?, hn] at h
        | some n =>
          by_cases hlink : ∃ target, n = .link target
          · obtain ⟨target, rfl⟩ := hlink
            cases hway : steps? target with
            | none => simp [follow?, walk?, hn, hway] at h
            | some way =>
              obtain ⟨k, hk, hleads⟩ := ihlinks ((walk?_link hhere hn hway).symm.trans h)
              exact ⟨k + 1, Nat.succ_lt_succ hk, .link hhere hn hway hleads⟩
          · have hlink : ∀ target, n ≠ .link target := fun target he => hlink ⟨target, he⟩
            obtain ⟨k, hk, hleads⟩ := ih ((walk?_down hhere hn hlink).symm.trans h)
            exact ⟨k, hk, .down hhere hn hlink hleads⟩

theorem follow?_eq_some_iff :
    follow? root links here steps = some place ↔ ∃ k < links, Leads root k here steps place :=
  ⟨leads_of_follow?, fun ⟨_, hk, h⟩ => follow?_of_leads h hk⟩

/-- Two ways are put together, with their links. -/
theorem Leads.append {j : Nat} (h : Leads root j here steps mid)
    (h' : Leads root k mid steps' place) :
    Leads root (j + k) here (steps ++ steps') place := by
  induction h with
  | nil => rwa [Nat.zero_add]
  | stay hhere _ ih => exact .stay hhere (ih h')
  | up hhere _ ih => exact .up hhere (ih h')
  | down hhere hn hlink _ ih => exact .down hhere hn hlink (ih h')
  | link hhere hn hway _ ih =>
    rw [Nat.add_right_comm]
    exact .link hhere hn hway (List.append_assoc .. ▸ ih h')

/-- A way is cut between any two of its steps. -/
theorem Leads.exists_of_append (h : Leads root links here (steps ++ steps') place) :
    ∃ j k mid, links = j + k ∧ Leads root j here steps mid ∧ Leads root k mid steps' place := by
  -- The way is cut where the first steps have been taken, which may be behind a link.
  generalize hall : steps ++ steps' = all at h
  induction h generalizing steps with
  | nil =>
    obtain ⟨rfl, rfl⟩ := List.append_eq_nil_iff.1 hall
    exact ⟨0, 0, _, rfl, .nil, .nil⟩
  | stay hhere h ih =>
    rcases List.append_eq_cons_iff.1 hall with ⟨rfl, rfl⟩ | ⟨front, rfl, hrest⟩
    · exact ⟨0, _, _, (Nat.zero_add _).symm, .nil, .stay hhere h⟩
    · obtain ⟨j, k, mid, hsum, hfront, hback⟩ := ih hrest.symm
      exact ⟨j, k, mid, hsum, .stay hhere hfront, hback⟩
  | up hhere h ih =>
    rcases List.append_eq_cons_iff.1 hall with ⟨rfl, rfl⟩ | ⟨front, rfl, hrest⟩
    · exact ⟨0, _, _, (Nat.zero_add _).symm, .nil, .up hhere h⟩
    · obtain ⟨j, k, mid, hsum, hfront, hback⟩ := ih hrest.symm
      exact ⟨j, k, mid, hsum, .up hhere hfront, hback⟩
  | down hhere hn hlink h ih =>
    rcases List.append_eq_cons_iff.1 hall with ⟨rfl, rfl⟩ | ⟨front, rfl, hrest⟩
    · exact ⟨0, _, _, (Nat.zero_add _).symm, .nil, .down hhere hn hlink h⟩
    · obtain ⟨j, k, mid, hsum, hfront, hback⟩ := ih hrest.symm
      exact ⟨j, k, mid, hsum, .down hhere hn hlink hfront, hback⟩
  | link hhere hn hway h ih =>
    rcases List.append_eq_cons_iff.1 hall with ⟨rfl, rfl⟩ | ⟨front, rfl, rfl⟩
    · exact ⟨0, _, _, (Nat.zero_add _).symm, .nil, .link hhere hn hway h⟩
    · obtain ⟨j, k, mid, hsum, hfront, hback⟩ := ih (List.append_assoc ..)
      exact ⟨j + 1, k, mid, by omega, .link hhere hn hway hfront, hback⟩

/-! ## The last step -/

theorem Leads.of_stay (h : Leads root k here [.stay] place) : here = place := by
  cases h with
  | stay _ h =>
    cases h
    rfl

/-- Going down, there is an entry; it is where the step leads unless it is a link. -/
theorem Leads.exists_of_down (h : Leads root k here [.down name] place) :
    ∃ n, root.at? (here ++ [name]) = some n ∧
      (here ++ [name] = place ∨ ∃ target, n = .link target) := by
  cases h with
  | down _ hn _ h =>
    cases h
    exact ⟨_, hn, .inl rfl⟩
  | link _ hn _ _ => exact ⟨_, hn, .inr ⟨_, rfl⟩⟩

/-! ## Paths -/

variable {t : FileTree} {path directory : String}

/-- A path leads to the place that its steps lead to. -/
theorem place?_eq_some_iff :
    t.place? path = some place ↔
      ∃ steps, steps? path = some steps ∧
        ∃ k < linkLimit, Leads t.root k (start path []) steps place := by
  simp only [place?, Option.bind_eq_bind, Option.bind_eq_some_iff, follow?_eq_some_iff]

theorem find?_eq_some_iff :
    t.find? path = some n ↔ ∃ place, t.place? path = some place ∧ t.root.at? place = some n := by
  simp only [find?, Option.bind_eq_bind, Option.bind_eq_some_iff]

/-- What is found at a path is the entry there, unless that is a link. -/
theorem entry?_of_find? (h : t.find? path = some n) :
    ∃ entry, t.entry? path = some entry ∧ (entry = n ∨ ∃ target, entry = .link target) := by
  obtain ⟨place, hplace, hn⟩ := find?_eq_some_iff.1 h
  obtain ⟨steps, hsteps, k, hk, hleads⟩ := place?_eq_some_iff.1 hplace
  simp only [hsteps, entry?, Option.bind_eq_bind, Option.bind_some]
  split
  · next name hlast =>
    obtain ⟨front, rfl⟩ := List.getLast?_eq_some_iff.1 hlast
    obtain ⟨i, j, mid, hsum, hfront, hdown⟩ := hleads.exists_of_append
    obtain ⟨entry, hentry, hcases⟩ := hdown.exists_of_down
    have hmid : follow? t.root linkLimit (start path []) front = some mid :=
      follow?_of_leads hfront (by omega)
    refine ⟨entry, ?_, hcases.imp_left ?_⟩
    · rw [List.dropLast_concat, hmid, Option.bind_some, hentry]
    · rintro rfl
      exact Option.some.inj (hentry.symm.trans hn)
  · exact ⟨n, h, .inl rfl⟩

/-- A name is a step down. -/
theorem ofPiece_toList (hname : Path.IsName name) : Step.ofPiece name.toList = .down name := by
  have hdot : name.toList ≠ ['.'] := fun h => hname.ne_dot (String.toList_inj.1 h)
  have hdots : name.toList ≠ ['.', '.'] := fun h => hname.ne_dots (String.toList_inj.1 h)
  simp [Step.ofPiece, hname.ne_empty, hdot, hdots]

theorem start_join (hdirectory : directory ≠ "") (name : String) (here : List String) :
    start (Path.join directory name) here = start directory here := by
  obtain ⟨front, hjoin, hfront⟩ := Path.exists_front directory name
  have hhead : (Path.join directory name).toList.head? = directory.toList.head? := by
    rw [hjoin]
    rcases hfront with h | h
    · obtain ⟨c, cs, hcs⟩ := List.exists_cons_of_ne_nil fun hnil =>
        hdirectory (String.toList_eq_nil_iff.1 hnil)
      rw [← h, hcs]
      rfl
    · rw [h]
      cases front <;> rfl
  rw [start, hhead, start]

/-- The steps to an entry are those to its directory, without one that stays there, and one
    down. -/
theorem steps?_join (hname : Path.IsName name) (hsteps : steps? directory = some steps) :
    ∃ front, steps? (Path.join directory name) = some (front ++ [.down name]) ∧
      (steps = front ∨ steps = front ++ [.stay]) := by
  obtain rfl := Option.some.inj (Option.ite_none_left_eq_some.1 hsteps).2
  obtain ⟨front, hjoin, hfront⟩ := Path.exists_pieces_join hname directory
  have hne : Path.join directory name ≠ "" := by
    obtain ⟨cs, hcs, -⟩ := Path.exists_front directory name
    rintro h
    simp [h] at hcs
  refine ⟨front.map .ofPiece, ?_, hfront.imp (congrArg _) fun h => ?_⟩
  · rw [steps?, if_neg hne, hjoin, List.map_append, List.map_singleton, ofPiece_toList hname]
  · rw [h, List.map_append]
    rfl

/-- An entry of a directory is found behind the directory, if it is no link. -/
theorem place?_join (hname : Path.IsName name) (hplace : t.place? directory = some here)
    (hhere : HasDirectory t.root here) (hn : t.root.at? (here ++ [name]) = some n)
    (hlink : ∀ target, n ≠ .link target) :
    t.place? (Path.join directory name) = some (here ++ [name]) := by
  obtain ⟨steps, hsteps, k, hk, hleads⟩ := place?_eq_some_iff.1 hplace
  obtain ⟨front, hjoin, hfront⟩ := steps?_join hname hsteps
  have hdirectory : directory ≠ "" := (Option.ite_none_left_eq_some.1 hsteps).1
  obtain ⟨j, hj, hleads⟩ : ∃ j < linkLimit, Leads t.root j (start directory []) front here := by
    rcases hfront with rfl | rfl
    · exact ⟨k, hk, hleads⟩
    · obtain ⟨i, j, mid, hsum, hfront, hstay⟩ := hleads.exists_of_append
      obtain rfl : mid = here := hstay.of_stay
      exact ⟨i, by omega, hfront⟩
  refine place?_eq_some_iff.2 ⟨_, hjoin, j, hj, ?_⟩
  rw [start_join hdirectory]
  exact hleads.append (.down hhere hn hlink .nil)

end FileTree

end ManifestBundle
