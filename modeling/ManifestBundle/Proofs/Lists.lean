import Mathlib.Data.List.Basic
import Mathlib.Data.List.Induction

/-!
# First occurrences in lists

`List.eraseDups` keeps the first of equal members. What it keeps are the members of the
list, each once (`nodup_eraseDups`), in the order of their first occurrences
(`pairwise_idxOf_eraseDups`). It goes along with a filter (`eraseDups_filter`). The proofs
are by induction from the end, where one more member adds itself or nothing
(`eraseDups_concat`).

`List.lookup` finds the first entry of a key (`lookup_cons_eq_ite`). In a list that holds each
key once it finds every entry (`lookup_eq_some_iff_mem`), in whatever order they stand
(`lookup_eq_of_perm`).
-/

namespace List

variable {α β : Type} [DecidableEq α]

theorem lookup_cons_eq_ite (e : α × β) (l : List (α × β)) (a : α) :
    (e :: l).lookup a = if a = e.1 then some e.2 else l.lookup a := by
  rw [lookup_cons]
  by_cases h : a = e.1
  · simp [h]
  · rw [beq_false_of_ne h, if_neg h]

/-- With every key once, what a look-up finds is what stands in the list. -/
theorem lookup_eq_some_iff_mem {l : List (α × β)} (h : (l.map Prod.fst).Nodup) {a : α} {b : β} :
    l.lookup a = some b ↔ (a, b) ∈ l := by
  induction l with
  | nil => simp
  | cons e l ih =>
    rw [map_cons, nodup_cons] at h
    rw [lookup_cons_eq_ite, mem_cons]
    split
    · next ha =>
      -- The key is not that of another entry.
      have hnew : (a, b) ∉ l := fun hmem => h.1 (ha ▸ mem_map_of_mem hmem)
      rw [or_iff_left hnew, Option.some_inj, Prod.ext_iff, and_iff_right ha, eq_comm]
    · next ha =>
      rw [ih h.2, or_iff_right]
      rintro rfl
      exact ha rfl

/-- With every key once, the order of the entries does not count. -/
theorem lookup_eq_of_perm {l l' : List (α × β)} (h : (l.map Prod.fst).Nodup) (hperm : l.Perm l')
    (a : α) : l.lookup a = l'.lookup a := by
  have h' : (l'.map Prod.fst).Nodup := (hperm.map Prod.fst).nodup_iff.1 h
  refine Option.ext fun b => ?_
  rw [lookup_eq_some_iff_mem h, lookup_eq_some_iff_mem h', hperm.mem_iff]

/-- An item at the end is erased if it has been in the list before. -/
theorem eraseDups_concat (l : List α) (a : α) :
    (l ++ [a]).eraseDups = if a ∈ l then l.eraseDups else l.eraseDups ++ [a] := by
  rw [eraseDups_append]
  by_cases h : a ∈ l <;> simp [h, removeAll, eraseDups_cons]

/-- What is left stands in the order in which it first came. -/
theorem pairwise_idxOf_eraseDups (l : List α) :
    l.eraseDups.Pairwise fun a b => l.idxOf a < l.idxOf b := by
  induction l using reverseRecOn with
  | nil => exact .nil
  | append_singleton l a ih =>
    -- The first occurrence of a member stays where it is when the list grows.
    have hold {b : α} (hb : b ∈ l.eraseDups) : (l ++ [a]).idxOf b = l.idxOf b :=
      idxOf_append_of_mem (mem_eraseDups.1 hb)
    have hkept : l.eraseDups.Pairwise fun b c => (l ++ [a]).idxOf b < (l ++ [a]).idxOf c :=
      ih.imp_of_mem fun hb hc h => by rwa [hold hb, hold hc]
    rw [eraseDups_concat]
    split
    · exact hkept
    · next hnew =>
      refine pairwise_append.2 ⟨hkept, pairwise_singleton _ _, fun b hb c hc => ?_⟩
      obtain rfl := mem_singleton.1 hc
      rw [hold hb, idxOf_append_of_notMem hnew]
      exact Nat.lt_add_right _ (idxOf_lt_length_iff.2 (mem_eraseDups.1 hb))

theorem nodup_eraseDups (l : List α) : l.eraseDups.Nodup :=
  (pairwise_idxOf_eraseDups l).imp fun h => by
    rintro rfl
    exact Nat.lt_irrefl _ h

/-- Items can be dropped before or after repetitions are erased. -/
theorem eraseDups_filter (p : α → Bool) (l : List α) :
    (l.filter p).eraseDups = l.eraseDups.filter p := by
  induction l using reverseRecOn with
  | nil => rfl
  | append_singleton l a ih =>
    rw [filter_append, eraseDups_concat]
    by_cases ha : p a
    · have hmem : a ∈ l.filter p ↔ a ∈ l := by rw [mem_filter, and_iff_left ha]
      rw [filter_cons_of_pos ha, filter_nil, eraseDups_concat, ih]
      simp only [hmem]
      split
      · rfl
      · rw [filter_append, filter_cons_of_pos ha, filter_nil]
    · rw [filter_cons_of_neg ha, filter_nil, append_nil, ih]
      split
      · rfl
      · rw [filter_append, filter_cons_of_neg ha, filter_nil, append_nil]

end List
