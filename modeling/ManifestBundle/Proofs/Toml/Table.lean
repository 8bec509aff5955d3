import ManifestBundle.Proofs.Lists
import ManifestBundle.Proofs.Toml.Document
import Mathlib.Data.List.Nodup

/-!
# Reading back a document with one table

A key that is not there yet is added at the end of the table that is open: the document in
front of all headers (`Draft.take?_pair`), and then the table of the last one
(`Draft.take?_pair_in`). So keys and values, a header, and more keys and values are read back
in their order, if no key is given twice (`parse?_of_lines`).
-/

namespace ManifestBundle.Toml

variable {es : Entries} {key table : String} {v : Value}

/-- The entries of keys and values. -/
def Entries.ofPairs (pairs : List (String × Value)) : Entries :=
  pairs.map fun p => (p.1, .value p.2)

/-- The expressions that give keys their values. -/
def Expression.ofPairs (pairs : List (String × Value)) : List Expression :=
  pairs.map fun p => .pair [p.1] p.2

theorem Entries.lookup_eq_none (h : key ∉ es.map Prod.fst) : es.lookup key = none := by
  refine List.lookup_eq_none_iff.2 fun e he => bne_iff_ne.2 ?_
  rintro rfl
  exact h (List.mem_map_of_mem he)

/-- A key that a table does not have is added at its end. -/
theorem Entries.insert?_eq (h : key ∉ es.map Prod.fst) :
    es.insert? [key] v = some (es ++ [(key, .value v)]) := by
  simp [insert?, splitPath?, change?, lookup_eq_none h]

theorem Entries.set_append (h : key ∉ es.map Prod.fst) (old new : Item) :
    Entries.set key new (es ++ [(key, old)]) = es ++ [(key, new)] := by
  induction es with
  | nil => simp [Entries.set]
  | cons e es ih =>
    rw [List.map_cons, List.mem_cons, not_or] at h
    rw [List.cons_append, Entries.set, if_neg (Ne.symm h.1), ih h.2, List.cons_append]

/-! ## Expressions one by one -/

namespace Draft

/-- In front of all headers a key is added to the document. -/
theorem take?_pair (h : key ∉ es.map Prod.fst) :
    take? ⟨es, []⟩ (.pair [key] v) = some ⟨es ++ [(key, .value v)], []⟩ := by
  simp [take?, Entries.change?, Entries.insert?_eq h]

/-- A header starts an empty table. -/
theorem take?_header (h : table ∉ es.map Prod.fst) (current : List String) :
    take? ⟨es, current⟩ (.header [table]) =
      some ⟨es ++ [(table, .table .header [])], [table]⟩ := by
  simp [take?, Entries.startTable?, splitPath?, Entries.change?, Entries.lookup_eq_none h]

/-- Behind a header a key is added to its table. -/
theorem take?_pair_in {inside : Entries} (hes : table ∉ es.map Prod.fst)
    (h : key ∉ inside.map Prod.fst) :
    take? ⟨es ++ [(table, .table .header inside)], [table]⟩ (.pair [key] v) =
      some ⟨es ++ [(table, .table .header (inside ++ [(key, .value v)]))], [table]⟩ := by
  have hlookup : (es ++ [(table, Item.table .header inside)]).lookup table =
      some (.table .header inside) := by
    simp [List.lookup_append, Entries.lookup_eq_none hes]
  simp [take?, Entries.change?, hlookup, Entries.insert?_eq h, Entries.set_append hes]

/-- Keys are added one by one to the table that is open, which is part of the draft. -/
theorem foldlM_take?_pairs (draft : Entries → Draft) (es : Entries)
    {pairs : List (String × Value)}
    (hstep : ∀ {es key v}, key ∉ es.map Prod.fst →
      (draft es).take? (.pair [key] v) = some (draft (es ++ [(key, .value v)])))
    (hnodup : (es.map Prod.fst ++ pairs.map Prod.fst).Nodup) :
    (Expression.ofPairs pairs).foldlM take? (draft es) =
      some (draft (es ++ Entries.ofPairs pairs)) := by
  induction pairs generalizing es with
  | nil => simp [Expression.ofPairs, Entries.ofPairs]
  | cons p pairs ih =>
    obtain ⟨key, v⟩ := p
    have hkey : key ∉ es.map Prod.fst := by
      intro h
      exact List.disjoint_of_nodup_append hnodup h List.mem_cons_self
    have hmore := ih (es ++ [(key, Item.value v)]) (by simpa using hnodup)
    rw [List.append_assoc] at hmore
    rw [Expression.ofPairs, List.map_cons, List.foldlM_cons, hstep hkey]
    exact hmore

end Draft

/-! ## Values in the end -/

theorem entriesToValues_append (es es' : Entries) :
    entriesToValues (es ++ es') = entriesToValues es ++ entriesToValues es' := by
  induction es with
  | nil => rfl
  | cons e es ih => rw [List.cons_append, entriesToValues, ih, entriesToValues, List.cons_append]

theorem entriesToValues_ofPairs (pairs : List (String × Value)) :
    entriesToValues (Entries.ofPairs pairs) = pairs := by
  induction pairs with
  | nil => rfl
  | cons p pairs ih => exact congrArg (p :: ·) ih

/-- A document with one table is read back. -/
theorem parse?_of_lines {cs : List Char} {pairs inside : List (String × Value)}
    (h : Lines cs (Expression.ofPairs pairs ++ .header [table] :: Expression.ofPairs inside))
    (hpairs : (pairs.map Prod.fst ++ [table]).Nodup)
    (hinside : (inside.map Prod.fst).Nodup) :
    parse? cs = some (pairs ++ [(table, .table inside)]) := by
  have hfuel : cs.length < 2 * cs.length + 2 := by omega
  have hexpressions := h.expressions?_eq hfuel
  have hes : table ∉ (Entries.ofPairs pairs).map Prod.fst := by
    have hkeys : (Entries.ofPairs pairs).map Prod.fst = pairs.map Prod.fst := by
      simp [Entries.ofPairs]
    rw [hkeys]
    intro hmem
    exact List.disjoint_of_nodup_append hpairs hmem (List.mem_singleton_self table)
  have hpairs : (Expression.ofPairs pairs).foldlM Draft.take? ⟨[], []⟩ =
      some ⟨Entries.ofPairs pairs, []⟩ :=
    Draft.foldlM_take?_pairs (fun es => ⟨es, []⟩) [] Draft.take?_pair hpairs.of_append_left
  have hinside : (Expression.ofPairs inside).foldlM Draft.take?
      ⟨Entries.ofPairs pairs ++ [(table, .table .header [])], [table]⟩ =
        some ⟨Entries.ofPairs pairs ++ [(table, .table .header (Entries.ofPairs inside))],
          [table]⟩ :=
    Draft.foldlM_take?_pairs
      (fun es => ⟨Entries.ofPairs pairs ++ [(table, .table .header es)], [table]⟩) []
      (Draft.take?_pair_in hes) hinside
  unfold parse?
  split
  · exact absurd rfl h.head?_ne
  · simp only [hexpressions, Option.bind_eq_bind, Option.bind_some, List.foldlM_append,
      List.foldlM_cons, hpairs, Draft.take?_header hes, hinside]
    rw [entriesToValues_append, entriesToValues_ofPairs, entriesToValues, Item.toValue,
      entriesToValues_ofPairs]
    rfl

end ManifestBundle.Toml
