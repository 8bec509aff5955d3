import ManifestBundle.Files.Path
import ManifestBundle.Proofs.Text.Split
import Mathlib.Data.Option.Basic

/-!
# Names in paths

The path of an entry is that of its directory, a slash and the name of the entry
(`toList_join`). So the name is its last piece, its last component (`components_join`) and its
file name (`fileName?_join`), and a path ends in a text without a slash if the name does
(`endsWith_join_iff`). The extension of a path is what its file name has behind the last dot,
with something in front (`extension?_eq_some_iff`).
-/

namespace ManifestBundle.Path

variable {path directory name ending : String}

/-- A name that an entry of a directory can have. -/
structure IsName (name : String) : Prop where
  ne_empty : name ≠ ""
  slash_notMem : '/' ∉ name.toList
  ne_dot : name ≠ "."
  ne_dots : name ≠ ".."

/-- A name is a text without a slash that is not empty and no way to stay or to go up. -/
theorem isName_iff :
    name ≠ "" ∧ '/' ∉ name.toList ∧ name ≠ "." ∧ name ≠ ".." ↔ IsName name :=
  ⟨fun ⟨hempty, hslash, hdot, hdots⟩ => ⟨hempty, hslash, hdot, hdots⟩,
    fun ⟨hempty, hslash, hdot, hdots⟩ => ⟨hempty, hslash, hdot, hdots⟩⟩

instance : Decidable (IsName name) :=
  decidable_of_iff _ isName_iff

/-- The piece of a path leads somewhere, be it up. -/
def isComponent (piece : List Char) : Bool :=
  !(piece.isEmpty || piece = ['.'])

/-- The pieces of a path that lead somewhere. -/
def components (path : String) : List String :=
  ((pieces path).filter isComponent).map String.ofList

theorem IsName.isComponent (h : IsName name) : isComponent name.toList = true := by
  have hdot : name.toList ≠ ['.'] := fun hdot => h.ne_dot (String.toList_inj.1 hdot)
  simp [Path.isComponent, h.ne_empty, hdot]

/-! ## The path of an entry -/

/-- What is in front of the slash before the name is the directory, without a slash that it may
    end with. -/
theorem exists_front (directory name : String) :
    ∃ front, (join directory name).toList = front ++ '/' :: name.toList ∧
      (directory.toList = front ∨ directory.toList = front ++ ['/']) := by
  rw [join]
  split
  · next hslash =>
    obtain ⟨front, hfront⟩ := List.getLast?_eq_some_iff.1 hslash
    exact ⟨front, by simp [hfront], .inr hfront⟩
  · exact ⟨directory.toList, by simp, .inl rfl⟩

/-- The name is one more piece, in the place of an empty one if there is one at the end. -/
theorem exists_pieces_join (hname : IsName name) (directory : String) :
    ∃ front, pieces (join directory name) = front ++ [name.toList] ∧
      (pieces directory = front ∨ pieces directory = front ++ [[]]) := by
  obtain ⟨front, hjoin, hdirectory⟩ := exists_front directory name
  refine ⟨Text.splitOn '/' front, ?_, hdirectory.imp (fun h => ?_) fun h => ?_⟩
  · rw [pieces, hjoin, Text.splitOn_append, Text.splitOn_of_notMem hname.slash_notMem]
  · rw [pieces, h]
  · rw [pieces, h, Text.splitOn_append]
    rfl

/-- A name that is joined to a directory is one more component. -/
theorem components_join (hname : IsName name) (directory : String) :
    components (join directory name) = components directory ++ [name] := by
  obtain ⟨front, hjoin, hdirectory⟩ := exists_pieces_join hname directory
  have hfront : (pieces directory).filter isComponent = front.filter isComponent := by
    rcases hdirectory with h | h
    · rw [h]
    · rw [h, List.filter_append]
      exact List.append_nil _
  rw [components, components, hjoin, List.filter_append, hfront,
    List.filter_cons_of_pos hname.isComponent]
  simp

theorem fileName?_of_getLast? {piece : List Char}
    (h : ((pieces path).filter isComponent).getLast? = some piece) (hdots : piece ≠ ['.', '.']) :
    fileName? path = some piece := by
  have hlast : ((pieces path).filter fun p => !(p.isEmpty || p = ['.'])).getLast? = some piece := h
  rw [fileName?, hlast]
  exact if_neg hdots

/-- The file name of a path that ends in a name is this name. -/
theorem fileName?_join (hname : IsName name) (directory : String) :
    fileName? (join directory name) = some name.toList := by
  obtain ⟨front, hjoin, -⟩ := exists_pieces_join hname directory
  refine fileName?_of_getLast? ?_ fun hdots => hname.ne_dots (String.toList_inj.1 hdots)
  rw [hjoin, List.filter_append, List.filter_cons_of_pos hname.isComponent]
  simp

/-! ## Endings -/

theorem endsWith_iff : endsWith path ending = true ↔ ending.toList <:+ path.toList := by
  rw [endsWith, List.isSuffixOf_iff_suffix]

/-- An ending without a slash is one of the name that the path ends in. -/
theorem endsWith_join_iff (hending : '/' ∉ ending.toList) (directory name : String) :
    endsWith (join directory name) ending = true ↔ ending.toList <:+ name.toList := by
  obtain ⟨front, hjoin, -⟩ := exists_front directory name
  have hslash {cs : List Char} : ¬ '/' :: cs <:+ ending.toList :=
    fun h => hending (h.subset List.mem_cons_self)
  rw [endsWith_iff, hjoin]
  constructor
  · intro h
    -- The ending and the name with its slash are both endings of the path.
    rcases List.suffix_or_suffix_of_suffix h (List.suffix_append front _) with h | h
    · rcases List.suffix_cons_iff.1 h with h | h
      · exact absurd ⟨[], h.symm⟩ hslash
      · exact h
    · exact absurd h hslash
  · intro h
    exact h.trans ((List.suffix_cons _ _).trans (List.suffix_append _ _))

/-- An extension stands behind the last point of a file name, and in front of the point stands
    something. -/
theorem extension?_eq_some_iff {extension : List Char} :
    extension? path = some extension ↔
      '.' ∉ extension ∧ ∃ stem, stem ≠ [] ∧ fileName? path = some (stem ++ '.' :: extension) := by
  constructor
  · intro h
    simp only [extension?, Option.bind_eq_bind, Option.bind_eq_some_iff] at h
    obtain ⟨fileName, hfileName, ⟨stem, rest⟩, hcut, h⟩ := h
    obtain ⟨rfl, hdot⟩ := Text.cutLast?_eq_some_iff.1 hcut
    obtain ⟨hstem, h⟩ := Option.ite_none_left_eq_some.1 h
    obtain rfl : rest = extension := Option.some.inj h
    exact ⟨hdot, stem, by simpa using hstem, hfileName⟩
  · rintro ⟨hdot, stem, hstem, hfileName⟩
    rw [extension?, hfileName]
    simp [Text.cutLast?_append stem hdot, hstem]

end ManifestBundle.Path
