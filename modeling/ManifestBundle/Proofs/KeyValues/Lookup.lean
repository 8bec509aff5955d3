import ManifestBundle.KeyValues
import ManifestBundle.Proofs.Lists
import Mathlib.Data.List.Nodup

/-!
# Looking up labels

A map from text to text is told by its values (`ext_get?`), or by its keys and a map of which it is
a part (`eq_iff_isSubsetOf`). So the order in which entries are set counts only among those of one
key: the last of them stands (`get?_insertAll`). Setting the entries of another map lets its values
go before (`get?_insertAll_entries`), and a map is made of its own entries in any order
(`ofEntries_of_perm`).
-/

namespace ManifestBundle.KeyValues

variable {m n : KeyValues} {es fs : List (String × String)} {k v : String}

/-! ## Values and entries -/

theorem nodup_keys (m : KeyValues) : (m.entries.map Prod.fst).Nodup := by
  rw [List.Nodup, List.pairwise_map]
  refine m.sorted.imp fun h heq => ?_
  rw [heq] at h
  exact String.lt_irrefl _ h

/-- A look-up finds the entry with the key. -/
theorem get?_eq_some_iff : m.get? k = some v ↔ (k, v) ∈ m.entries :=
  List.lookup_eq_some_iff_mem m.nodup_keys

/-- Maps with the same values are the same. -/
theorem ext_get? (h : ∀ k, m.get? k = n.get? k) : m = n := by
  have hmem (e : String × String) : e ∈ m.entries ↔ e ∈ n.entries := by
    rw [← get?_eq_some_iff, ← get?_eq_some_iff, h]
  have hperm : m.entries.Perm n.entries :=
    (List.perm_ext_iff_of_nodup (.of_map _ m.nodup_keys) (.of_map _ n.nodup_keys)).2 hmem
  obtain ⟨es, hes⟩ := m
  obtain ⟨fs, hfs⟩ := n
  have hasymm (e f : String × String) (hef : e.1 < f.1) (hfe : f.1 < e.1) : e = f :=
    absurd (String.lt_trans hef hfe) (String.lt_irrefl _)
  obtain rfl : es = fs := hperm.eq_of_pairwise (fun e f _ _ => hasymm e f) hes hfs
  rfl

/-- Equality is told by look-ups. -/
theorem ext_get?_iff : m = n ↔ ∀ k, m.get? k = n.get? k :=
  ⟨fun h _ => h ▸ rfl, ext_get?⟩

/-! ## Keys and inclusion -/

/-- The keys of a map. -/
def keys (m : KeyValues) : List String :=
  m.entries.map Prod.fst

theorem mem_keys_iff : k ∈ m.keys ↔ ∃ v, m.get? k = some v := by
  simp only [keys, List.mem_map, get?_eq_some_iff, Prod.exists, exists_and_right, exists_eq_right]

/-- Inclusion is told by look-ups. -/
theorem isSubsetOf_iff : m.isSubsetOf n ↔ ∀ k v, m.get? k = some v → n.get? k = some v := by
  simp only [isSubsetOf, List.all_eq_true, decide_eq_true_iff, Prod.forall, get?_eq_some_iff]

/-- A map is another one if it is a part of it and the other one has no key besides. -/
theorem eq_iff_isSubsetOf : m = n ↔ m.isSubsetOf n ∧ n.keys ⊆ m.keys := by
  constructor
  · rintro rfl
    exact ⟨isSubsetOf_iff.2 fun _ _ h => h, List.Subset.refl _⟩
  · rintro ⟨hsubset, hkeys⟩
    rw [isSubsetOf_iff] at hsubset
    refine ext_get? fun k => Option.ext fun v => ⟨hsubset k v, fun hv => ?_⟩
    obtain ⟨w, hw⟩ := mem_keys_iff.1 (hkeys (mem_keys_iff.2 ⟨v, hv⟩))
    obtain rfl : w = v := Option.some.inj ((hsubset k w hw).symm.trans hv)
    exact hw

theorem get?_of_isEmpty (h : m.isEmpty) (k : String) : m.get? k = none := by
  rw [get?, List.isEmpty_iff.1 h]
  rfl

/-! ## Setting entries -/

theorem get?_insert (m : KeyValues) (key value k : String) :
    (m.insert key value).get? k = if k = key then some value else m.get? k := by
  obtain ⟨es, hes⟩ := m
  change (insertEntry key value es).lookup k = if k = key then some value else es.lookup k
  clear hes
  induction es with
  | nil => exact List.lookup_cons_eq_ite (key, value) [] k
  | cons e es ih =>
    rw [insertEntry]
    split
    · exact List.lookup_cons_eq_ite (key, value) (e :: es) k
    · split
      · next heq =>
        rw [List.lookup_cons_eq_ite, List.lookup_cons_eq_ite, heq]
        split <;> rfl
      · next hne =>
        rw [List.lookup_cons_eq_ite, List.lookup_cons_eq_ite, ih]
        by_cases hk : k = e.1
        · rw [if_pos hk, if_pos hk, if_neg (hk ▸ hne)]
        · rw [if_neg hk, if_neg hk]

theorem insertAll_append (m : KeyValues) (es fs : List (String × String)) :
    m.insertAll (es ++ fs) = (m.insertAll es).insertAll fs :=
  List.foldl_append

/-- The last value that a key is given stands. -/
theorem get?_insertAll (m : KeyValues) (es : List (String × String)) (k : String) :
    (m.insertAll es).get? k = (es.reverse.lookup k).or (m.get? k) := by
  induction es using List.reverseRecOn with
  | nil => rfl
  | append_singleton es e ih =>
    rw [insertAll_append, List.reverse_append, List.reverse_singleton, List.singleton_append,
      List.lookup_cons_eq_ite]
    refine (get?_insert (m.insertAll es) e.1 e.2 k).trans ?_
    rw [ih]
    split <;> rfl

/-- Of entries with one key the last one counts. -/
theorem get?_ofEntries (es : List (String × String)) (k : String) :
    (ofEntries es).get? k = es.reverse.lookup k := by
  rw [ofEntries, get?_insertAll]
  exact Option.or_none

/-- Where the order of entries does not count, as no key comes again, they are all there. -/
theorem get?_ofEntries_of_nodup (h : (es.map Prod.fst).Nodup) (k : String) :
    (ofEntries es).get? k = es.lookup k := by
  rw [get?_ofEntries]
  refine List.lookup_eq_of_perm ?_ es.reverse_perm k
  rwa [List.map_reverse, List.nodup_reverse]

/-- The values of a map whose entries are set go before those that were there. -/
theorem get?_insertAll_entries (m n : KeyValues) (k : String) :
    (m.insertAll n.entries).get? k = (n.get? k).or (m.get? k) := by
  have hreverse : (n.entries.reverse.map Prod.fst).Nodup := by
    rw [List.map_reverse, List.nodup_reverse]
    exact n.nodup_keys
  rw [get?_insertAll, List.lookup_eq_of_perm hreverse n.entries.reverse_perm k]
  rfl

/-- A map that is made of entries can be set in their place. -/
theorem insertAll_ofEntries (m : KeyValues) (es : List (String × String)) :
    m.insertAll (ofEntries es).entries = m.insertAll es := by
  refine ext_get? fun k => ?_
  rw [get?_insertAll_entries, get?_ofEntries, get?_insertAll]

/-- A map is made of its own entries, in any order. -/
theorem ofEntries_of_perm (h : es.Perm m.entries) : ofEntries es = m := by
  have hnodup : (es.map Prod.fst).Nodup := (h.map Prod.fst).nodup_iff.2 m.nodup_keys
  refine ext_get? fun k => ?_
  rw [get?_ofEntries_of_nodup hnodup, List.lookup_eq_of_perm hnodup h]
  rfl

/-- A map holds no entry that it has not been given. -/
theorem mem_of_mem_ofEntries {e : String × String} (h : e ∈ (ofEntries es).entries) : e ∈ es := by
  rw [← get?_eq_some_iff, get?_ofEntries, List.lookup_eq_some_iff] at h
  obtain ⟨before, after, hes, -⟩ := h
  rw [← List.mem_reverse, hes]
  exact List.mem_append_right _ List.mem_cons_self

end ManifestBundle.KeyValues
