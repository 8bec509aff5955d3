import ManifestBundle.Proofs.Lists
import ManifestBundle.Value

/-!
# Maps built entry by entry

A map built from entries holds each key once, with values that are among those of the
entries (`exists_ofEntries`), and is the map of the entries themselves if they hold each
key once (`ofEntries_of_nodup`). In general it holds their keys in the order in which they
first came, each with the value that came last (`ofEntries_eq_iff`).
-/

namespace ManifestBundle.Value

variable {key : String} {value : Value} {acc es : List (String × Value)}

/-- A new key comes last. -/
theorem put_of_not_mem (h : key ∉ acc.map Prod.fst) :
    put key value acc = acc ++ [(key, value)] := by
  induction acc with
  | nil => rfl
  | cons e acc ih =>
    rw [List.map_cons, List.mem_cons, not_or] at h
    rw [put, if_neg (Ne.symm h.1), ih h.2, List.cons_append]

/-- The keys of a map stay as they are, but for a new one at the end. -/
theorem keys_put : (put key value acc).map Prod.fst =
    if key ∈ acc.map Prod.fst then acc.map Prod.fst else acc.map Prod.fst ++ [key] := by
  induction acc with
  | nil => rfl
  | cons e acc ih =>
    rw [put]
    by_cases h : e.1 = key
    · simp [h]
    · rw [if_neg h, List.map_cons, ih]
      by_cases hmem : key ∈ acc.map Prod.fst <;> simp [hmem, Ne.symm h]

/-- Putting an entry leaves the keys distinct. -/
theorem nodup_put (h : (acc.map Prod.fst).Nodup) : ((put key value acc).map Prod.fst).Nodup := by
  rw [keys_put]
  split
  · exact h
  · next hmem =>
    refine List.nodup_append.2 ⟨h, List.pairwise_singleton _ _, fun k hk k' hk' => ?_⟩
    rintro rfl
    exact hmem (List.mem_singleton.1 hk' ▸ hk)

theorem mem_put {e : String × Value} (h : e ∈ put key value acc) : e = (key, value) ∨ e ∈ acc := by
  induction acc with
  | nil => exact .inl (List.mem_singleton.1 h)
  | cons f acc ih =>
    rw [put] at h
    split at h
    · next hkey =>
      rcases List.mem_cons.1 h with rfl | h
      · exact .inl (Prod.ext hkey rfl)
      · exact .inr (List.mem_cons_of_mem f h)
    · rcases List.mem_cons.1 h with rfl | h
      · exact .inr List.mem_cons_self
      · exact (ih h).imp_right (List.mem_cons_of_mem f)

/-- A map holds each key once, and no value that it has not been given. -/
theorem exists_ofEntries (es : List (String × Value)) :
    ∃ entries, ofEntries es = .map entries ∧ (entries.map Prod.fst).Nodup ∧
      ∀ e ∈ entries, e ∈ es := by
  have hfold (acc : List (String × Value)) (hacc : (acc.map Prod.fst).Nodup) :
      ((es.foldl (fun acc e => put e.1 e.2 acc) acc).map Prod.fst).Nodup ∧
        ∀ e ∈ es.foldl (fun acc e => put e.1 e.2 acc) acc, e ∈ acc ∨ e ∈ es := by
    induction es generalizing acc with
    | nil => exact ⟨hacc, fun e he => .inl he⟩
    | cons f es ih =>
      obtain ⟨hnodup, hmem⟩ := ih (put f.1 f.2 acc) (nodup_put hacc)
      refine ⟨hnodup, fun e he => ?_⟩
      rcases hmem e he with h | h
      · rcases mem_put h with rfl | h
        · exact .inr List.mem_cons_self
        · exact .inl h
      · exact .inr (List.mem_cons_of_mem f h)
  obtain ⟨hnodup, hmem⟩ := hfold [] List.nodup_nil
  exact ⟨_, rfl, hnodup, fun e he => (hmem e he).resolve_left (by simp)⟩

/-- Entries with distinct keys are the entries of their map. -/
theorem ofEntries_of_nodup (h : (es.map Prod.fst).Nodup) : ofEntries es = .map es := by
  have hfold (acc : List (String × Value)) (hacc : ((acc ++ es).map Prod.fst).Nodup) :
      es.foldl (fun acc e => put e.1 e.2 acc) acc = acc ++ es := by
    clear h
    induction es generalizing acc with
    | nil => rw [List.foldl_nil, List.append_nil]
    | cons e es ih =>
      have hnew : e.1 ∉ acc.map Prod.fst := by
        rw [List.map_append, List.nodup_append] at hacc
        exact fun hmem => hacc.2.2 _ hmem e.1 List.mem_cons_self rfl
      have hput : put e.1 e.2 acc = acc ++ [e] := put_of_not_mem hnew
      rw [List.foldl_cons]
      refine (congrArg (es.foldl _) hput).trans ((ih _ (by simpa using hacc)).trans ?_)
      rw [List.append_assoc, List.singleton_append]
  rw [ofEntries, hfold [] h, List.nil_append]

/-! ## Keys that come again -/

theorem lookup_eq_none {k : String} (h : k ∉ es.map Prod.fst) : es.lookup k = none := by
  refine List.lookup_eq_none_iff.2 fun e he => ?_
  rw [bne_iff_ne]
  rintro rfl
  exact h (List.mem_map_of_mem he)

theorem lookup_put (k : String) :
    (put key value acc).lookup k = if k = key then some value else acc.lookup k := by
  induction acc with
  | nil => exact List.lookup_cons_eq_ite (key, value) [] k
  | cons e acc ih =>
    rw [put]
    by_cases hkey : e.1 = key
    · rw [if_pos hkey, List.lookup_cons_eq_ite, List.lookup_cons_eq_ite, hkey]
      by_cases hk : k = key <;> simp only [hk, if_true, if_false]
    · rw [if_neg hkey, List.lookup_cons_eq_ite, List.lookup_cons_eq_ite, ih]
      by_cases hk : k = e.1
      · rw [if_pos hk, if_pos hk, if_neg (hk ▸ hkey)]
      · rw [if_neg hk, if_neg hk]

/-- Entries with the same distinct keys are the same if the keys have the same values. -/
theorem eq_of_lookup {bs : List (String × Value)} (hkeys : es.map Prod.fst = bs.map Prod.fst)
    (hnodup : (es.map Prod.fst).Nodup) (h : ∀ k, es.lookup k = bs.lookup k) : es = bs := by
  induction es generalizing bs with
  | nil => exact (List.map_eq_nil_iff.1 hkeys.symm).symm
  | cons e es ih =>
    obtain ⟨b, bs, rfl, hb, hbs⟩ := List.map_eq_cons_iff.1 hkeys.symm
    rw [List.map_cons, List.nodup_cons] at hnodup
    simp only [List.lookup_cons_eq_ite, hb] at h
    have hvalue : e.2 = b.2 := by simpa using h e.1
    have hrest (k : String) : es.lookup k = bs.lookup k := by
      by_cases hk : k = e.1
      · -- The key of the first entry is in neither list of the others.
        have hnew : k ∉ es.map Prod.fst := hk ▸ hnodup.1
        rw [lookup_eq_none hnew, lookup_eq_none (hbs ▸ hnew)]
      · simpa [hk] using h k
    rw [ih hbs.symm hnodup.2 hrest, Prod.ext hb.symm hvalue]

/-- `merged` are the entries of a map that is made of `es`: it holds each key once, in the
    order in which they first came, with the value that came last. -/
structure Merges (es merged : List (String × Value)) : Prop where
  keys : merged.map Prod.fst = (es.map Prod.fst).eraseDups
  lookup (k : String) : merged.lookup k = es.reverse.lookup k

/-- Putting entries one by one merges them. -/
theorem merges_foldl (es : List (String × Value)) :
    Merges es (es.foldl (fun acc (k, v) => put k v acc) []) := by
  induction es using List.reverseRecOn with
  | nil => exact ⟨rfl, fun _ => rfl⟩
  | append_singleton es e ih =>
    rw [List.foldl_append, List.foldl_cons, List.foldl_nil]
    refine ⟨?_, fun k => ?_⟩
    · rw [keys_put, ih.keys, List.map_append, List.map_singleton, List.eraseDups_concat]
      simp only [List.mem_eraseDups]
    · rw [lookup_put, ih.lookup, List.reverse_append, List.reverse_singleton,
        List.singleton_append, List.lookup_cons_eq_ite]

/-- The map that holds given entries is the one to which they merge. -/
theorem ofEntries_eq_iff {v : Value} :
    ofEntries es = v ↔ ∃ merged, Merges es merged ∧ .map merged = v := by
  have hfold := merges_foldl es
  constructor
  · rintro rfl
    exact ⟨_, hfold, rfl⟩
  · rintro ⟨merged, h, rfl⟩
    obtain ⟨entries, hentries, hnodup, -⟩ := exists_ofEntries es
    obtain rfl := Value.map.inj hentries
    rw [ofEntries]
    refine congrArg _ (eq_of_lookup (hfold.keys.trans h.keys.symm) hnodup fun k => ?_)
    rw [hfold.lookup, h.lookup]

/-- Entries merge into one map only. -/
theorem Merges.unique {merged merged' : List (String × Value)} (h : Merges es merged)
    (h' : Merges es merged') : merged = merged' := by
  have hmap : ofEntries es = .map merged := ofEntries_eq_iff.2 ⟨merged, h, rfl⟩
  have hmap' : ofEntries es = .map merged' := ofEntries_eq_iff.2 ⟨merged', h', rfl⟩
  exact Value.map.inj (hmap.symm.trans hmap')

theorem Merges.nodup {merged : List (String × Value)} (h : Merges es merged) :
    (merged.map Prod.fst).Nodup := by
  obtain ⟨entries, hentries, hnodup, -⟩ := exists_ofEntries es
  obtain ⟨merged', h', hmap⟩ := ofEntries_eq_iff.1 hentries
  obtain rfl : merged' = entries := Value.map.inj hmap
  exact h'.unique h ▸ hnodup

/-- Entries with distinct keys stay as they are. -/
theorem merges_self (h : (es.map Prod.fst).Nodup) : Merges es es := by
  obtain ⟨merged, hmerged, hsame⟩ := ofEntries_eq_iff.1 (ofEntries_of_nodup h)
  obtain rfl : merged = es := Value.map.inj hsame
  exact hmerged

end ManifestBundle.Value
