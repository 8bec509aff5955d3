import ManifestBundle.Proofs.Bundle.Selection
import ManifestBundle.Proofs.Lists

/-!
# Documents that share an identity

A bundle has duplicates where a selector by identity does not find the only document of
that identity (`selectOne_ofId_agrees_with_duplicates`).

Duplicates are found by counting. After any number of named documents, the counts hold the
identities that have occurred, in the order in which they first did, each with the number of
its occurrences (`foldl_countOnce`); counting once more changes one entry or adds one at the
end (`countOnce_map`). So the duplicates are the distinct identities with a name that occur
twice at least (`duplicates_eq`).
-/

namespace ManifestBundle

/-! ## Selecting by identity -/

theorem Selector.selects_ofId_iff {id : DocumentId} {d : Document} :
    (Selector.ofId id).selects d ↔ d.name ≠ "" ∧ d.id = id := by
  obtain ⟨group, version, kind, namespaceName, name⟩ := id
  have hempty : KeyValues.empty.isEmpty = true := rfl
  simp only [selects, ofId, ofKind, admits, admitsAll, hempty, Document.isMaterialized,
    Document.id, Bool.and_eq_true, decide_eq_true_eq, Bool.true_or, and_true,
    DocumentId.mk.injEq]
  grind

namespace Bundle

variable (b : Bundle)

/-- The documents with an identity. -/
def withId (id : DocumentId) : List Document :=
  b.documents.filter (·.id = id)

/-- The identities of all documents. -/
def ids : List DocumentId :=
  b.documents.map Document.id

theorem count_ids (id : DocumentId) : b.ids.count id = (b.withId id).length := by
  rw [ids, List.count_eq_countP, List.countP_map, withId, ← List.countP_eq_length_filter]
  rfl

/-- A selector by an identity with a name chooses the documents with that identity. -/
theorem filter_ofId {id : DocumentId} (h : id.name ≠ "") :
    b.filter (.ofId id) = b.withId id := by
  refine List.filter_congr fun d _ => ?_
  rw [Bool.eq_iff_iff, Selector.selects_ofId_iff, decide_eq_true_iff, and_iff_right_iff_imp]
  rintro rfl
  exact h

/-! ## Counting -/

/-- Counting an identity once more raises its count, or adds it at the end. -/
theorem countOnce_map {ids : List DocumentId} (h : ids.Nodup) (f : DocumentId → Nat)
    (id : DocumentId) :
    countOnce id (ids.map fun i => (i, f i)) =
      if id ∈ ids then ids.map fun i => (i, if i = id then f i + 1 else f i)
      else ids.map (fun i => (i, f i)) ++ [(id, 1)] := by
  induction ids with
  | nil => rfl
  | cons i ids ih =>
    obtain ⟨hi, hids⟩ := List.nodup_cons.1 h
    rw [List.map_cons, countOnce]
    by_cases hid : i = id
    · -- The others keep their counts, as `id` is not among them.
      subst hid
      have hothers : ids.map (fun j => (j, if j = i then f j + 1 else f j)) =
          ids.map fun j => (j, f j) := by
        refine List.map_congr_left fun j hj => ?_
        rw [if_neg]
        rintro rfl
        exact hi hj
      rw [if_pos rfl, if_pos List.mem_cons_self, List.map_cons, if_pos rfl, hothers]
    · have hmem : id ∈ i :: ids ↔ id ∈ ids := by
        rw [List.mem_cons, or_iff_right (Ne.symm hid)]
      rw [if_neg hid, ih hids]
      simp only [hmem]
      split
      · rw [List.map_cons, if_neg hid]
      · rfl

/-- Counting identities one by one gives those that are distinct, with their counts. -/
theorem foldl_countOnce (ids : List DocumentId) :
    ids.foldl (fun counts id => countOnce id counts) [] =
      ids.eraseDups.map fun i => (i, ids.count i) := by
  induction ids using List.reverseRecOn with
  | nil => rfl
  | append_singleton ids id ih =>
    have hcount (i : DocumentId) :
        (ids ++ [id]).count i = if i = id then ids.count i + 1 else ids.count i := by
      rw [List.count_append, List.count_singleton, beq_eq_decide]
      by_cases hi : id = i <;> simp [hi, eq_comm]
    rw [List.foldl_append, List.foldl_cons, List.foldl_nil, ih,
      countOnce_map (List.nodup_eraseDups ids), List.eraseDups_concat]
    simp only [List.mem_eraseDups, hcount]
    by_cases hid : id ∈ ids
    · rw [if_pos hid, if_pos hid]
    · -- The new identity is none of the old ones, so these keep their counts.
      have hold :
          ids.eraseDups.map (fun i => (i, if i = id then ids.count i + 1 else ids.count i)) =
            ids.eraseDups.map fun i => (i, ids.count i) := by
        refine List.map_congr_left fun i hi => ?_
        rw [if_neg]
        rintro rfl
        exact hid (List.mem_eraseDups.1 hi)
      rw [if_neg hid, if_neg hid, List.map_append, hold, List.map_singleton, if_pos rfl,
        List.count_eq_zero_of_not_mem hid]

theorem identityCounts_eq :
    b.identityCounts =
      (b.ids.filter (·.name ≠ "")).eraseDups.map fun i =>
        (i, (b.ids.filter (·.name ≠ "")).count i) := by
  have hids : (b.documents.filter Document.isMaterialized).map Document.id =
      b.ids.filter (·.name ≠ "") := by
    rw [ids, List.filter_map]
    rfl
  rw [← foldl_countOnce, ← hids, List.foldl_map]
  rfl

/-- The duplicates are the distinct identities with a name that occur more than once. -/
theorem duplicates_eq :
    b.duplicates = b.ids.eraseDups.filter fun i => i.name ≠ "" ∧ 1 < b.ids.count i := by
  rw [duplicates, identityCounts_eq, List.filter_map, List.map_map, List.eraseDups_filter,
    List.filter_filter]
  refine (List.map_id' _).trans (List.filter_congr fun i _ => ?_)
  by_cases hname : i.name = ""
  · simp [hname]
  · have hcount : (b.ids.filter (·.name ≠ "")).count i = b.ids.count i :=
      List.count_filter (by simpa using hname)
    simp only [Function.comp_apply, hcount]
    rw [Bool.and_comm, ← Bool.decide_and]

/-! ## Agreement -/

theorem mem_duplicates_iff {id : DocumentId} :
    id ∈ b.duplicates ↔ id.name ≠ "" ∧ 2 ≤ (b.withId id).length := by
  rw [duplicates_eq, List.mem_filter, List.mem_eraseDups, decide_eq_true_iff, count_ids]
  refine and_iff_right_of_imp fun h => ?_
  rw [← List.count_pos_iff, count_ids]
  exact Nat.lt_of_lt_of_le Nat.two_pos h.2

theorem nodup_duplicates : b.duplicates.Nodup := by
  rw [duplicates_eq]
  exact (List.nodup_eraseDups b.ids).filter _

/-- The duplicates stand in the order in which they first occur in the bundle. -/
theorem pairwise_duplicates :
    b.duplicates.Pairwise fun i j => b.ids.idxOf i < b.ids.idxOf j := by
  rw [duplicates_eq]
  exact (List.pairwise_idxOf_eraseDups b.ids).filter _

/-- Of the documents with an identity that has a name, a selector by that identity finds the
    only one, or tells that there is none or how many there are. The identities for which it
    tells that are the duplicates: each is listed once, in the order of their first
    documents. -/
theorem selectOne_ofId_agrees_with_duplicates (b : Bundle) {id : DocumentId} (h : id.name ≠ "") :
    let n := (b.withId id).length
    ((∃ d, b.selectOne (.ofId id) = .ok d) ↔ n = 1) ∧
    (∀ d, b.selectOne (.ofId id) = .ok d ↔ b.withId id = [d]) ∧
    (b.selectOne (.ofId id) = .error (.notFound (.ofId id)) ↔ n = 0) ∧
    (b.selectOne (.ofId id) = .error (.notUnique (.ofId id) n) ↔ 2 ≤ n) ∧
    (∀ i, i ∈ b.duplicates ↔ i.name ≠ "" ∧ 2 ≤ (b.withId i).length) ∧
    b.duplicates.Nodup ∧
    b.duplicates.Pairwise fun i j => b.ids.idxOf i < b.ids.idxOf j := by
  intro n
  have hfilter := b.filter_ofId h
  refine ⟨?_, fun d => ?_, ?_, ?_, fun i => b.mem_duplicates_iff, b.nodup_duplicates,
    b.pairwise_duplicates⟩
  · simp only [selectOne_eq_ok_iff, hfilter]
    exact List.length_eq_one_iff.symm
  · rw [selectOne_eq_ok_iff, hfilter]
  · rw [selectOne_eq_notFound_iff, hfilter]
  · have hmany := b.selectOne_eq_notUnique_iff (.ofId id)
    rwa [hfilter] at hmany

/-- A namespace of the cluster. -/
def clusterNamespace (name : String) : Document where
  group := ""
  version := "v1"
  kind := "Namespace"
  name := name

/-- Two documents that share an identity, with others between them. -/
theorem selectOne_ofId_of_shared :
    let b : Bundle := ⟨["x", "", "y", "", "x"].map clusterNamespace⟩
    let id := (clusterNamespace "x").id
    id.name ≠ "" ∧ b.selectOne (.ofId id) = .error (.notUnique (.ofId id) 2) ∧
      id ∈ b.duplicates ∧ (clusterNamespace "").id ∉ b.duplicates := by
  intro b id
  have hname : id.name ≠ "" := by decide
  have hunnamed : ¬ (clusterNamespace "").id.name ≠ "" := by decide
  obtain ⟨-, -, -, hmany, hduplicates, -⟩ := selectOne_ofId_agrees_with_duplicates b hname
  have htwo : (b.withId id).length = 2 := by decide
  rw [htwo] at hmany
  exact ⟨hname, hmany.2 Nat.le.refl, (hduplicates id).2 ⟨hname, Nat.le_of_eq htwo.symm⟩,
    fun h => hunnamed ((hduplicates _).1 h).1⟩

end Bundle

end ManifestBundle
