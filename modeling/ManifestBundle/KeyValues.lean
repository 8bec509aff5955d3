import ManifestBundle.Text.Blank
import ManifestBundle.Text.Split

/-!
# Labels and annotations

Labels, annotations and what a selector asks of them are maps from text to text,
kept in increasing order of their keys, each key once. As the order is part of the
type, two maps are equal exactly if they give each key the same value.

On the command line such a map is spelled `key=value,key=value`: blanks around
keys and values do not count, nor do blank entries, and of a key that is given
twice the last value counts. An entry without an equals sign, or with nothing but
blanks before it, is refused.
-/

namespace ManifestBundle

/-- A map from text to text in increasing order of keys. -/
structure KeyValues where
  entries : List (String × String)
  sorted : entries.Pairwise fun a b => a.1 < b.1

namespace KeyValues

instance : DecidableEq KeyValues := fun a b =>
  decidable_of_iff (a.entries = b.entries)
    ⟨fun h => by cases a; cases b; cases h; rfl, fun h => by rw [h]⟩

/-- The map without keys. -/
def empty : KeyValues :=
  ⟨[], .nil⟩

instance : Inhabited KeyValues :=
  ⟨empty⟩

/-- The map has no keys. -/
def isEmpty (m : KeyValues) : Bool :=
  m.entries.isEmpty

/-- The value of a key. -/
def get? (m : KeyValues) (key : String) : Option String :=
  m.entries.lookup key

/-- The entries with the value of one key replaced, or added at its place. -/
def insertEntry (key value : String) : List (String × String) → List (String × String)
  | [] => [(key, value)]
  | (k, v) :: rest =>
    if key < k then (key, value) :: (k, v) :: rest
    else if k = key then (key, value) :: rest
    else (k, v) :: insertEntry key value rest

theorem mem_insertEntry {key value : String} {l : List (String × String)} {e : String × String}
    (h : e ∈ insertEntry key value l) : e = (key, value) ∨ e ∈ l := by
  induction l with
  | nil => simpa [insertEntry] using h
  | cons a l ih =>
    obtain ⟨k, v⟩ := a
    simp only [insertEntry] at h
    split at h
    · simpa using h
    · split at h
      · rcases List.mem_cons.1 h with h | h
        · exact .inl h
        · exact .inr (List.mem_cons_of_mem _ h)
      · rcases List.mem_cons.1 h with h | h
        · exact .inr (h ▸ List.mem_cons_self)
        · exact (ih h).imp_right (List.mem_cons_of_mem _)

theorem sorted_insertEntry (key value : String) {l : List (String × String)}
    (h : l.Pairwise fun a b => a.1 < b.1) :
    (insertEntry key value l).Pairwise fun a b => a.1 < b.1 := by
  induction l with
  | nil => simp [insertEntry]
  | cons a l ih =>
    obtain ⟨k, v⟩ := a
    have hk := List.pairwise_cons.1 h
    simp only [insertEntry]
    split
    · next lt =>
      refine List.pairwise_cons.2 ⟨fun b hb => ?_, h⟩
      rcases List.mem_cons.1 hb with rfl | hb
      · exact lt
      · exact String.lt_trans lt (hk.1 b hb)
    · next nlt =>
      split
      · next eq => exact List.pairwise_cons.2 ⟨fun b hb => eq ▸ hk.1 b hb, hk.2⟩
      · next ne =>
        refine List.pairwise_cons.2 ⟨fun b hb => ?_, ih hk.2⟩
        rcases mem_insertEntry hb with rfl | hb
        · -- Neither less nor equal: the key stands after `k`.
          by_cases gt : k < key
          · exact gt
          · exact absurd (String.le_antisymm (String.not_lt.1 nlt) (String.not_lt.1 gt)) ne
        · exact hk.1 b hb

/-- The map with the value of one key set. -/
def insert (m : KeyValues) (key value : String) : KeyValues :=
  ⟨insertEntry key value m.entries, sorted_insertEntry key value m.sorted⟩

/-- The map with the values of several keys set, in their order. -/
def insertAll (m : KeyValues) (entries : List (String × String)) : KeyValues :=
  entries.foldl (fun m (k, v) => m.insert k v) m

/-- The map that holds the given entries; the last value of a key counts. -/
def ofEntries (entries : List (String × String)) : KeyValues :=
  empty.insertAll entries

/-- Every key of this map has the same value in the other one. -/
def isSubsetOf (m n : KeyValues) : Bool :=
  m.entries.all fun (k, v) => n.get? k = some v

/-- Why an entry is not of the form `key=value`. -/
inductive EntryError where
  /-- The entry has no equals sign. -/
  | noEquals (entry : String)
  /-- The entry has nothing before its first equals sign. -/
  | noKey (entry : String)
deriving DecidableEq, Repr

/-- The wording of the cause. -/
def EntryError.message : EntryError → String
  | .noEquals entry => s!"expected key=value, found '{entry}'"
  | .noKey entry => s!"empty key in '{entry}'"

/-- The key and value of an entry that is trimmed. -/
def entry? (cs : List Char) : Except EntryError (String × String) :=
  match Text.cutFirst? '=' cs with
  | none => .error (.noEquals (String.ofList cs))
  | some (key, value) =>
    let key := Text.trim key
    if key.isEmpty then .error (.noKey (String.ofList cs))
    else .ok (String.ofList key, String.ofList (Text.trim value))

/-- The map that a text spells. -/
def parse (text : String) : Except EntryError KeyValues := do
  let pieces := (Text.splitOn ',' text.toList).map Text.trim
  return ofEntries (← (pieces.filter (!·.isEmpty)).mapM entry?)

/-- The entries of a map spelled with commas between them. -/
def text (m : KeyValues) : String :=
  String.intercalate "," (m.entries.map fun (k, v) => k ++ "=" ++ v)

end KeyValues

end ManifestBundle
