import ManifestBundle.Proofs.Gzip.Format
import Mathlib.Data.List.Sort

/-!
# Placing symbols makes the code of their lengths

A code is made of the lengths of its words by placing symbols from the left of the tree to the
right (`Huffman.place`). This gives the code that the lengths settle and no other one
(`Huffman.ofLengths?_eq_some_iff`):

* Of the symbols for one depth the first ones go to the left (`Huffman.place_levels`), and
  nothing is left of those for the depths above a leaf, when it is placed
  (`Huffman.left_eq_nil_of_word`). So no shorter word can follow, and the code is canonical
  (`Huffman.isCanonical_of_ofLengths?`).
* Conversely, symbols that are taken from the leaves of a full tree whose shorter words come
  first are placed where they have been (`Huffman.place_of_isFull`).
-/

namespace ManifestBundle.Gzip

namespace Huffman

/-! ## Symbols at a depth -/

variable {height : Nat} {levels : List (List Nat)} {code : Huffman} {s t : Nat} {w v : List Bool}

/-- The symbols at a depth, from the left to the right. -/
def atDepth : Huffman → Nat → List Nat
  | .free, _ => []
  | .symbol s, 0 => [s]
  | .symbol _, _ + 1 => []
  | .branch _ _, 0 => []
  | .branch zero one, d + 1 => zero.atDepth d ++ one.atDepth d

/-- The symbols at a depth are those with words of that length. -/
theorem mem_atDepth_iff {code : Huffman} {s d : Nat} :
    s ∈ code.atDepth d ↔ ∃ w, code.Word s w ∧ w.length = d := by
  induction code generalizing d with
  | free =>
    simp only [atDepth, List.not_mem_nil, false_iff]
    rintro ⟨w, hw, -⟩
    cases hw
  | symbol t =>
    constructor
    · intro h
      cases d with
      | zero =>
        obtain rfl := List.mem_singleton.1 h
        exact ⟨[], .symbol s, rfl⟩
      | succ d => cases h
    · rintro ⟨w, hw, rfl⟩
      cases hw
      exact List.mem_singleton_self s
  | branch zero one ihZero ihOne =>
    cases d with
    | zero =>
      simp only [atDepth, List.not_mem_nil, false_iff]
      rintro ⟨w, hw, hlength⟩
      cases hw <;> cases hlength
    | succ d =>
      rw [atDepth, List.mem_append, ihZero, ihOne]
      constructor
      · rintro (⟨w, hw, rfl⟩ | ⟨w, hw, rfl⟩)
        · exact ⟨false :: w, .zero hw, rfl⟩
        · exact ⟨true :: w, .one hw, rfl⟩
      · rintro ⟨w, hw, hlength⟩
        cases hw with
        | zero hw => exact .inl ⟨_, hw, Nat.succ_inj.1 hlength⟩
        | one hw => exact .inr ⟨_, hw, Nat.succ_inj.1 hlength⟩

/-- Among words of one length, those of smaller symbols come first, and a symbol has one of
    them only. -/
theorem lt_of_pairwise (hsorted : (code.atDepth w.length).Pairwise (· < ·)) (hw : code.Word s w)
    (hv : code.Word t v) (hlength : w.length = v.length) :
    (s < t → w < v) ∧ (s = t → w = v) := by
  induction hw generalizing v with
  | symbol =>
    cases hv
    exact ⟨fun h => absurd h (Nat.lt_irrefl _), fun _ => rfl⟩
  | zero hw ih =>
    obtain ⟨hzero, -, hacross⟩ := List.pairwise_append.1 hsorted
    cases hv with
    | zero hv =>
      obtain ⟨hlt, heq⟩ := ih hzero hv (Nat.succ_inj.1 hlength)
      exact ⟨fun h => List.Lex.cons (hlt h), fun h => congrArg _ (heq h)⟩
    | one hv =>
      have hst := hacross _ (mem_atDepth_iff.2 ⟨_, hw, rfl⟩) _
        (mem_atDepth_iff.2 ⟨_, hv, (Nat.succ_inj.1 hlength).symm⟩)
      exact ⟨fun _ => List.Lex.rel (by decide), fun h => absurd h hst.ne⟩
  | one hw ih =>
    obtain ⟨-, hone, hacross⟩ := List.pairwise_append.1 hsorted
    cases hv with
    | zero hv =>
      have hts := hacross _ (mem_atDepth_iff.2 ⟨_, hv, (Nat.succ_inj.1 hlength).symm⟩) _
        (mem_atDepth_iff.2 ⟨_, hw, rfl⟩)
      exact ⟨fun h => absurd h hts.asymm, fun h => absurd h hts.ne'⟩
    | one hv =>
      obtain ⟨hlt, heq⟩ := ih hone hv (Nat.succ_inj.1 hlength)
      exact ⟨fun h => List.Lex.cons (hlt h), fun h => congrArg _ (heq h)⟩

/-- Symbols that stand at one depth from the left to the right have words in that order. -/
theorem pairwise_atDepth (code : Huffman) (d : Nat) :
    (code.atDepth d).Pairwise fun s t =>
      ∃ w v, code.Word s w ∧ code.Word t v ∧ w.length = v.length ∧ w < v := by
  induction code generalizing d with
  | free => exact .nil
  | symbol s =>
    cases d with
    | zero => exact List.pairwise_singleton _ s
    | succ d => exact .nil
  | branch zero one ihZero ihOne =>
    cases d with
    | zero => exact .nil
    | succ d =>
      refine List.pairwise_append.2 ⟨(ihZero d).imp ?_, (ihOne d).imp ?_, fun s hs t ht => ?_⟩
      · rintro s t ⟨w, v, hw, hv, hlength, hlt⟩
        exact ⟨_, _, .zero hw, .zero hv, congrArg Nat.succ hlength, List.Lex.cons hlt⟩
      · rintro s t ⟨w, v, hw, hv, hlength, hlt⟩
        exact ⟨_, _, .one hw, .one hv, congrArg Nat.succ hlength, List.Lex.cons hlt⟩
      · obtain ⟨w, hw, hwd⟩ := mem_atDepth_iff.1 hs
        obtain ⟨v, hv, hvd⟩ := mem_atDepth_iff.1 ht
        exact ⟨_, _, .zero hw, .one hv, congrArg Nat.succ (hwd.trans hvd.symm),
          List.Lex.rel (by decide)⟩

/-- A full tree has a symbol. -/
theorem exists_word_of_isFull (h : code.isFull = true) : ∃ s w, code.Word s w := by
  induction code with
  | free => nomatch h
  | symbol s => exact ⟨s, [], .symbol s⟩
  | branch zero one ihZero _ =>
    obtain ⟨s, w, hw⟩ := ihZero (Bool.and_eq_true_iff.1 h).1
    exact ⟨s, _, .zero hw⟩

/-! ## What has been placed -/

/-- The symbols for one depth are those that are placed there and those that are left. -/
theorem place_levels (height : Nat) (levels : List (List Nat)) (d : Nat) :
    levels.getD d [] = (place height levels).1.atDepth d ++ (place height levels).2.getD d [] := by
  induction height generalizing levels d with
  | zero =>
    rcases levels with _ | ⟨_ | ⟨s, ss⟩, below⟩
    · rfl
    · rfl
    · cases d <;> rfl
  | succ height ih =>
    rcases levels with _ | ⟨_ | ⟨s, ss⟩, below⟩
    · rfl
    · rw [place]
      split
      · rfl
      · cases d with
        | zero => rfl
        | succ d =>
          have hzero := ih below d
          have hone := ih (place height below).2 d
          rw [hone, ← List.append_assoc] at hzero
          exact hzero
    · cases d <;> rfl

/-- Below a node the symbols are placed on the left first, and on the right those that are
    left then. -/
theorem exists_of_place_branch {height : Nat} {levels : List (List Nat)} {zero one : Huffman}
    (h : (place height levels).1 = .branch zero one) :
    ∃ lower below, (place lower below).1 = zero ∧ (place lower (place lower below).2).1 = one ∧
      (place height levels).2 = [] :: (place lower (place lower below).2).2 := by
  cases height with
  | zero => rcases levels with _ | ⟨_ | ⟨s, ss⟩, below⟩ <;> cases h
  | succ lower =>
    rcases levels with _ | ⟨_ | ⟨s, ss⟩, below⟩
    · cases h
    · rw [place] at h ⊢
      split at h
      · cases h
      · next hne =>
        cases h
        rw [if_neg hne]
        exact ⟨lower, below, rfl, rfl, rfl⟩
    · cases h

/-- Nothing is left for the depths above a symbol that has been placed. -/
theorem left_eq_nil_of_word (hcode : (place height levels).1 = code) (h : code.Word s w) {d : Nat}
    (hd : d < w.length) : (place height levels).2.getD d [] = [] := by
  induction h generalizing height levels d with
  | symbol => cases hd
  | zero h ih =>
    obtain ⟨lower, below, rfl, rfl, hleft⟩ := exists_of_place_branch hcode
    rw [hleft]
    cases d with
    | zero => rfl
    | succ d =>
      -- What is not left beside the symbol is not left behind it either.
      have hone := place_levels lower (place lower below).2 d
      rw [ih rfl (Nat.lt_of_succ_lt_succ hd)] at hone
      exact (List.nil_eq_append_iff.1 hone).2
  | one h ih =>
    obtain ⟨lower, below, rfl, rfl, hleft⟩ := exists_of_place_branch hcode
    rw [hleft]
    cases d with
    | zero => rfl
    | succ d => exact ih rfl (Nat.lt_of_succ_lt_succ hd)

/-- Shorter words come first. -/
theorem lt_of_length_lt (hcode : (place height levels).1 = code) (hw : code.Word s w)
    (hv : code.Word t v) (h : w.length < v.length) : w < v := by
  induction hw generalizing height levels v with
  | symbol =>
    cases hv
    cases h
  | zero hw ih =>
    obtain ⟨lower, below, rfl, rfl, -⟩ := exists_of_place_branch hcode
    cases hv with
    | zero hv => exact List.Lex.cons (ih rfl hv (Nat.lt_of_succ_lt_succ h))
    | one hv => exact List.Lex.rel (by decide)
  | @one _ _ s w hw ih =>
    obtain ⟨lower, below, rfl, rfl, -⟩ := exists_of_place_branch hcode
    cases hv with
    | zero hv =>
      -- The longer word has been given before, so no shorter one was left.
      have hone := place_levels lower (place lower below).2 w.length
      rw [left_eq_nil_of_word rfl hv (Nat.lt_of_succ_lt_succ h)] at hone
      have hmem := mem_atDepth_iff.2 ⟨w, hw, rfl⟩
      rw [(List.nil_eq_append_iff.1 hone).1] at hmem
      cases hmem
    | one hv => exact List.Lex.cons (ih rfl hv (Nat.lt_of_succ_lt_succ h))

/-! ## Where symbols are placed -/

/-- All levels are empty. -/
theorem all_isEmpty_iff {levels : List (List Nat)} :
    levels.all List.isEmpty = true ↔ ∀ d, levels.getD d [] = [] := by
  rw [List.all_eq_true]
  constructor
  · intro h d
    rw [List.getD_eq_getElem?_getD]
    cases hd : levels[d]? with
    | none => rfl
    | some ss => exact List.isEmpty_iff.1 (h ss (List.mem_of_getElem? hd))
  · intro h ss hmem
    obtain ⟨d, hd⟩ := List.mem_iff_getElem?.1 hmem
    have hnil := h d
    rw [List.getD_eq_getElem?_getD, hd] at hnil
    exact List.isEmpty_iff.2 hnil

/-- If there is a symbol for a depth below a node and none for its own, symbols are placed on its
    left and then on its right. -/
theorem place_succ (height : Nat) (hnode : levels.getD 0 [] = []) {d : Nat}
    (hmem : s ∈ levels.getD (d + 1) []) :
    ∃ below, (∀ d, below.getD d [] = levels.getD (d + 1) []) ∧
      place (height + 1) levels =
        (.branch (place height below).1 (place height (place height below).2).1,
          [] :: (place height (place height below).2).2) := by
  cases levels with
  | nil => nomatch hmem
  | cons ss below =>
    obtain rfl : ss = [] := hnode
    have hne : ¬ below.all List.isEmpty = true := fun h => by
      rw [List.getD_cons_succ, all_isEmpty_iff.1 h] at hmem
      nomatch hmem
    refine ⟨below, fun _ => rfl, ?_⟩
    rw [place, if_neg hne]

/-- If shorter words come first, none on the right is shorter than one on the left. -/
theorem right_eq_nil_of_word {zero one : Huffman}
    (hlt : ∀ {s t w v}, (branch zero one).Word s w → (branch zero one).Word t v →
      w.length < v.length → w < v)
    (hw : zero.Word s w) {d : Nat} (hd : d < w.length) : one.atDepth d = [] := by
  refine List.eq_nil_iff_forall_not_mem.2 fun t ht => ?_
  obtain ⟨v, hv, rfl⟩ := mem_atDepth_iff.1 ht
  rcases List.cons_lt_cons_iff.1 (hlt (.one hv) (.zero hw) (Nat.succ_lt_succ hd)) with h | ⟨h, -⟩
  · exact absurd h (by decide)
  · nomatch h

/-- The symbols of a full tree whose shorter words come first are placed where they are in it,
    if there are no more for the depths above a leaf. -/
theorem place_of_isFull (hfull : code.isFull = true)
    (hlt : ∀ {s t w v}, code.Word s w → code.Word t v → w.length < v.length → w < v)
    (hheight : ∀ {s w}, code.Word s w → w.length ≤ height) {more : Nat → List Nat}
    (hlevels : ∀ d, levels.getD d [] = code.atDepth d ++ more d)
    (hmore : ∀ {s w}, code.Word s w → ∀ d < w.length, more d = []) :
    (place height levels).1 = code := by
  induction code generalizing height levels more with
  | free => nomatch hfull
  | symbol s =>
    have hfirst : levels.getD 0 [] = s :: more 0 := hlevels 0
    cases levels with
    | nil => nomatch hfirst
    | cons ss below =>
      obtain rfl : ss = s :: more 0 := hfirst
      rw [place]
  | branch zero one ihZero ihOne =>
    obtain ⟨hzero, hone⟩ := Bool.and_eq_true_iff.1 hfull
    obtain ⟨s, w, hw⟩ := exists_word_of_isFull hzero
    have hle := hheight (.zero hw)
    rw [List.length_cons] at hle
    obtain ⟨lower, rfl⟩ := Nat.exists_eq_add_one_of_ne_zero (by omega : height ≠ 0)
    -- Nothing is for the depth of the node, and the symbol for one below it.
    have hnode : levels.getD 0 [] = [] := by
      rw [hlevels, hmore (.zero hw) 0 (Nat.succ_pos _)]
      rfl
    have hmem : s ∈ levels.getD (w.length + 1) [] := by
      rw [hlevels]
      exact List.mem_append_left _ (mem_atDepth_iff.2 ⟨_, .zero hw, rfl⟩)
    obtain ⟨below, hbelow, hplace⟩ := place_succ lower hnode hmem
    have hparts (d : Nat) :
        below.getD d [] = zero.atDepth d ++ (one.atDepth d ++ more (d + 1)) := by
      rw [hbelow, hlevels, ← List.append_assoc]
      rfl
    have hleft : (place lower below).1 = zero := by
      refine ihZero hzero (fun hw hv h => ?_) (fun hw => ?_) hparts fun hw d hd => ?_
      · exact List.cons_lt_cons_self.1 (hlt (.zero hw) (.zero hv) (Nat.succ_lt_succ h))
      · exact Nat.le_of_succ_le_succ (hheight (.zero hw))
      · rw [right_eq_nil_of_word hlt hw hd, hmore (.zero hw) (d + 1) (Nat.succ_lt_succ hd)]
        rfl
    have hrest (d : Nat) : (place lower below).2.getD d [] = one.atDepth d ++ more (d + 1) := by
      have hplaced := place_levels lower below d
      rw [hparts, hleft] at hplaced
      exact (List.append_cancel_left hplaced).symm
    have hright : (place lower (place lower below).2).1 = one := by
      refine ihOne hone (fun hw hv h => ?_) (fun hw => ?_) hrest fun hw d hd => ?_
      · exact List.cons_lt_cons_self.1 (hlt (.one hw) (.one hv) (Nat.succ_lt_succ h))
      · exact Nat.le_of_succ_le_succ (hheight (.one hw))
      · exact hmore (.one hw) (d + 1) (Nat.succ_lt_succ hd)
    rw [hplace, hleft, hright]

/-- Without symbols nothing is placed. -/
theorem place_of_forall_eq_nil (height : Nat) (h : ∀ d, levels.getD d [] = []) :
    (place height levels).1 = .free ∧ ∀ d, (place height levels).2.getD d [] = [] := by
  cases levels with
  | nil =>
    rw [place]
    exact ⟨rfl, h⟩
  | cons ss below =>
    obtain rfl : ss = [] := h 0
    cases height with
    | zero =>
      rw [place]
      exact ⟨rfl, h⟩
    | succ height =>
      have hbelow : below.all List.isEmpty = true := all_isEmpty_iff.2 fun d => h (d + 1)
      rw [place, if_pos hbelow]
      exact ⟨rfl, h⟩

/-- A symbol alone is placed at the left. -/
theorem place_of_forall_eq {length : Nat} (hle : length ≤ height)
    (h : ∀ d, levels.getD d [] = if d = length then [s] else []) :
    (place height levels).1 = lone length s ∧ ∀ d, (place height levels).2.getD d [] = [] := by
  induction length generalizing height levels with
  | zero =>
    have hfirst : levels.getD 0 [] = [s] := h 0
    cases levels with
    | nil => nomatch hfirst
    | cons ss below =>
      obtain rfl : ss = [s] := hfirst
      rw [place]
      refine ⟨rfl, fun d => ?_⟩
      cases d with
      | zero => rfl
      | succ d => exact h (d + 1)
  | succ length ih =>
    obtain ⟨lower, rfl⟩ := Nat.exists_eq_add_one_of_ne_zero (by omega : height ≠ 0)
    have hmem : s ∈ levels.getD (length + 1) [] := by
      rw [h, if_pos rfl]
      exact List.mem_singleton_self s
    obtain ⟨below, hbelow, hplace⟩ := place_succ lower (h 0) hmem
    have hparts (d : Nat) : below.getD d [] = if d = length then [s] else [] := by
      rw [hbelow, h]
      simp only [Nat.succ_inj]
    obtain ⟨hleft, hrest⟩ := ih (Nat.le_of_succ_le_succ hle) hparts
    obtain ⟨hright, hnone⟩ := place_of_forall_eq_nil lower hrest
    rw [hplace]
    refine ⟨congrArg₂ Huffman.branch hleft hright, fun d => ?_⟩
    cases d with
    | zero => rfl
    | succ d => exact hnone d

/-! ## Lengths -/

variable {lengths : List Nat} {mayLack : Bool}

theorem mem_symbolsOfLength_iff {n : Nat} :
    s ∈ symbolsOfLength lengths n ↔ lengths[s]? = some n := by
  simp [symbolsOfLength, List.mk_mem_zipIdx_iff_getElem?]

theorem pairwise_symbolsOfLength (n : Nat) : (symbolsOfLength lengths n).Pairwise (· < ·) := by
  have hsublist : (symbolsOfLength lengths n).Sublist (lengths.zipIdx.map Prod.snd) :=
    List.filter_sublist.map Prod.snd
  rw [List.zipIdx_map_snd] at hsublist
  exact List.Pairwise.sublist hsublist List.pairwise_lt_range'

/-- The symbols to be placed: those with words of each length up to the greatest. -/
def levelsOf (lengths : List Nat) : List (List Nat) :=
  [] :: (List.range maxLength).map fun i => symbolsOfLength lengths (i + 1)

theorem getD_levelsOf (d : Nat) :
    (levelsOf lengths).getD d [] =
      if d = 0 ∨ maxLength < d then [] else symbolsOfLength lengths d := by
  cases d with
  | zero => rfl
  | succ d =>
    by_cases hd : d < maxLength
    · simp [levelsOf, hd, Nat.not_lt.2 (Nat.succ_le_of_lt hd)]
    · simp [levelsOf, hd, Nat.lt_succ_of_le (Nat.not_lt.1 hd)]

/-- A code is made if no symbol is left, and the tree is full or need not be. -/
theorem ofLengths?_eq_some_iff_place :
    ofLengths? mayLack lengths = some code ↔
      (place maxLength (levelsOf lengths)).1 = code ∧
      (∀ d, (place maxLength (levelsOf lengths)).2.getD d [] = []) ∧
      (code.isFull = true ∨ mayLack = true ∧ lengths.countP (0 < ·) ≤ 1) := by
  rw [← all_isEmpty_iff]
  change (if _ then some (place maxLength (levelsOf lengths)).1 else none) = _ ↔ _
  rw [Option.ite_none_right_eq_some, Option.some.injEq]
  simp only [Bool.and_eq_true, Bool.or_eq_true, decide_eq_true_eq]
  constructor
  · rintro ⟨⟨hleft, hfull⟩, rfl⟩
    exact ⟨rfl, hleft, hfull⟩
  · rintro ⟨rfl, hleft, hfull⟩
    exact ⟨⟨hleft, hfull⟩, rfl⟩

/-- The code that is made of lengths has the words that they settle. -/
theorem isCanonical_of_ofLengths? (hle : ∀ n ∈ lengths, n ≤ maxLength)
    (h : ofLengths? mayLack lengths = some code) : code.IsCanonical lengths := by
  obtain ⟨hcode, hleft, -⟩ := ofLengths?_eq_some_iff_place.1 h
  have hdepth (d : Nat) : code.atDepth d =
      if d = 0 ∨ maxLength < d then [] else symbolsOfLength lengths d := by
    have hplaced := place_levels maxLength (levelsOf lengths) d
    rw [hcode, hleft, List.append_nil, getD_levelsOf] at hplaced
    exact hplaced.symm
  have hsorted (d : Nat) : (code.atDepth d).Pairwise (· < ·) := by
    rw [hdepth]
    split
    · exact .nil
    · exact pairwise_symbolsOfLength d
  have hword {s : Nat} {w : List Bool} (hw : code.Word s w) :
      w.length ≠ 0 ∧ lengths[s]? = some w.length := by
    have hmem := mem_atDepth_iff.2 ⟨w, hw, rfl⟩
    rw [hdepth] at hmem
    split at hmem
    · cases hmem
    · next hd => exact ⟨fun h0 => hd (.inl h0), mem_symbolsOfLength_iff.1 hmem⟩
  constructor
  case length_eq => exact fun hw => (hword hw).2
  case ne_nil => exact fun hw => List.ne_nil_of_length_pos (Nat.pos_of_ne_zero (hword hw).1)
  case existsUnique =>
    intro s n hn hpos
    have hmem : s ∈ code.atDepth n := by
      rw [hdepth, if_neg]
      · exact mem_symbolsOfLength_iff.2 hn
      · rintro (h0 | hlt)
        · exact hpos h0
        · exact Nat.not_lt.2 (hle n (List.mem_of_getElem? hn)) hlt
    obtain ⟨w, hw, rfl⟩ := mem_atDepth_iff.1 hmem
    refine ⟨w, hw, fun v hv => ?_⟩
    have hlength : w.length = v.length := Option.some.inj (hn.symm.trans (hword hv).2)
    exact ((lt_of_pairwise (hsorted _) hw hv hlength).2 rfl).symm
  case lt =>
    rintro s t w v hw hv (hlt | ⟨heq, hst⟩)
    · exact lt_of_length_lt hcode hw hv hlt
    · exact (lt_of_pairwise (hsorted _) hw hv heq).1 hst

/-- In a canonical code the symbols of one depth are those of one length, in their order. -/
theorem IsCanonical.atDepth_eq (h : code.IsCanonical lengths) {d : Nat} (hd : d ≠ 0) :
    code.atDepth d = symbolsOfLength lengths d := by
  refine List.Pairwise.eq_of_mem_iff ((pairwise_atDepth code d).imp ?_)
    (pairwise_symbolsOfLength d) fun s => ?_
  · rintro s t ⟨w, v, hw, hv, hlength, hlt⟩
    rcases Nat.lt_trichotomy s t with hst | rfl | hts
    · exact hst
    · obtain ⟨u, -, hu⟩ :=
        h.existsUnique (h.length_eq hw) (List.length_pos_of_ne_nil (h.ne_nil hw)).ne'
      rw [hu w hw, hu v hv] at hlt
      exact absurd hlt (List.lt_irrefl u)
    · exact absurd hlt (List.lt_asymm (h.lt hv hw (.inr ⟨hlength.symm, hts⟩)))
  · rw [mem_atDepth_iff, mem_symbolsOfLength_iff]
    constructor
    · rintro ⟨w, hw, rfl⟩
      exact h.length_eq hw
    · intro hs
      obtain ⟨w, hw, -⟩ := h.existsUnique hs hd
      exact ⟨w, hw, Option.some.inj ((h.length_eq hw).symm.trans hs)⟩

/-- A full canonical code is made of its lengths. -/
theorem IsCanonical.ofLengths? (h : code.IsCanonical lengths) (hfull : code.isFull = true)
    (hle : ∀ n ∈ lengths, n ≤ maxLength) : ofLengths? mayLack lengths = some code := by
  have hheight {s : Nat} {w : List Bool} (hw : code.Word s w) : w.length ≤ maxLength :=
    hle _ (List.mem_of_getElem? (h.length_eq hw))
  have hlevels (d : Nat) : (levelsOf lengths).getD d [] = code.atDepth d := by
    rw [getD_levelsOf]
    split
    · next hd =>
      refine (List.eq_nil_iff_forall_not_mem.2 fun s hs => ?_).symm
      obtain ⟨w, hw, rfl⟩ := mem_atDepth_iff.1 hs
      rcases hd with hd | hd
      · exact h.ne_nil hw (List.length_eq_zero_iff.1 hd)
      · exact Nat.not_lt.2 (hheight hw) hd
    · next hd => exact (h.atDepth_eq fun h0 => hd (.inl h0)).symm
  have hcode : (place maxLength (levelsOf lengths)).1 = code :=
    place_of_isFull hfull (fun hw hv hlt => h.lt hw hv (.inl hlt)) hheight
      (fun d => (hlevels d).trans (List.append_nil _).symm) fun _ _ _ => rfl
  refine ofLengths?_eq_some_iff_place.2 ⟨hcode, fun d => ?_, .inl hfull⟩
  have hplaced := place_levels maxLength (levelsOf lengths) d
  rw [hcode, hlevels] at hplaced
  exact List.self_eq_append_right.1 hplaced

/-! ## Codes without words or with one alone -/

/-- If at most one length is not zero, then all are zero, or all beside that one. -/
theorem eq_replicate_or_lone (h : lengths.countP (0 < ·) ≤ 1) :
    (∃ count, lengths = List.replicate count 0) ∨
      ∃ s length count, 0 < length ∧
        lengths = List.replicate s 0 ++ length :: List.replicate count 0 := by
  induction lengths with
  | nil => exact .inl ⟨0, rfl⟩
  | cons n ns ih =>
    cases n with
    | zero =>
      rcases ih (by simpa using h) with ⟨count, rfl⟩ | ⟨s, length, count, hpos, rfl⟩
      · exact .inl ⟨count + 1, rfl⟩
      · exact .inr ⟨s + 1, length, count, hpos, rfl⟩
    | succ n =>
      have hzero : ns.countP (0 < ·) = 0 := by simpa using h
      have hall : ∀ m ∈ ns, m = 0 := by simpa using List.countP_eq_zero.1 hzero
      exact .inr ⟨0, n + 1, ns.length, Nat.succ_pos n,
        congrArg _ (List.eq_replicate_of_mem hall)⟩

theorem symbolsOfLength_replicate (count : Nat) {d : Nat} (hd : d ≠ 0) :
    symbolsOfLength (List.replicate count 0) d = [] := by
  refine List.eq_nil_iff_forall_not_mem.2 fun t ht => ?_
  have hmem := List.mem_of_getElem? (mem_symbolsOfLength_iff.1 ht)
  exact hd (List.eq_of_mem_replicate hmem)

theorem symbolsOfLength_lone (s length count : Nat) {d : Nat} (hd : d ≠ 0) :
    symbolsOfLength (List.replicate s 0 ++ length :: List.replicate count 0) d =
      if d = length then [s] else [] := by
  have hmem (t : Nat) : t ∈ (if d = length then [s] else []) ↔ d = length ∧ t = s := by
    split <;> simp [*]
  refine List.Pairwise.eq_of_mem_iff (pairwise_symbolsOfLength d) (by split <;> simp) fun t => ?_
  rw [mem_symbolsOfLength_iff, hmem]
  rcases Nat.lt_trichotomy t s with h | rfl | h
  · rw [List.getElem?_append_left (by simpa using h), List.getElem?_replicate]
    simp [h, h.ne, hd.symm]
  · simp [eq_comm]
  · obtain ⟨k, rfl⟩ := Nat.exists_eq_add_of_lt h
    rw [List.getElem?_append_right (by simp; omega)]
    simp [List.getElem?_replicate, hd.symm, Nat.add_assoc]

/-- Without words there is nothing to be placed. -/
theorem getD_levelsOf_replicate (count d : Nat) :
    (levelsOf (List.replicate count 0)).getD d [] = [] := by
  rw [getD_levelsOf]
  split
  · rfl
  · next hd => exact symbolsOfLength_replicate count fun h0 => hd (.inl h0)

/-- Of one word alone the symbol is to be placed, at the depth of its length. -/
theorem getD_levelsOf_lone {length : Nat} (hpos : 0 < length) (hle : length ≤ maxLength)
    (s count d : Nat) :
    (levelsOf (List.replicate s 0 ++ length :: List.replicate count 0)).getD d [] =
      if d = length then [s] else [] := by
  rw [getD_levelsOf]
  split
  · rw [if_neg (by omega)]
  · next hd => exact symbolsOfLength_lone s length count fun h0 => hd (.inl h0)

/-- A code is made of lengths exactly if it is the one that they settle. -/
theorem ofLengths?_eq_some_iff (hle : ∀ n ∈ lengths, n ≤ maxLength) :
    ofLengths? mayLack lengths = some code ↔ code.IsCode mayLack lengths := by
  have hempty (count : Nat) :=
    place_of_forall_eq_nil maxLength (getD_levelsOf_replicate count)
  have hlone {length : Nat} (hpos : 0 < length) (hmax : length ≤ maxLength) (s count : Nat) :=
    place_of_forall_eq hmax (getD_levelsOf_lone hpos hmax s count)
  constructor
  · intro h
    obtain ⟨rfl, -, hfull | ⟨hlack, hcount⟩⟩ := ofLengths?_eq_some_iff_place.1 h
    · exact .full (isCanonical_of_ofLengths? hle h) hfull
    · rcases eq_replicate_or_lone hcount with ⟨count, rfl⟩ | ⟨s, length, count, hpos, rfl⟩
      · rw [(hempty count).1]
        exact .empty hlack
      · rw [(hlone hpos (hle length (by simp)) s count).1]
        exact .lone hlack hpos
  · intro h
    cases h with
    | full hcanonical hfull => exact hcanonical.ofLengths? hfull hle
    | @empty count hlack =>
      obtain ⟨hcode, hleft⟩ := hempty count
      refine ofLengths?_eq_some_iff_place.2 ⟨hcode, hleft, .inr ⟨hlack, ?_⟩⟩
      simp [List.countP_replicate]
    | @lone s length count hlack hpos =>
      obtain ⟨hcode, hleft⟩ := hlone hpos (hle length (by simp)) s count
      refine ofLengths?_eq_some_iff_place.2 ⟨hcode, hleft, .inr ⟨hlack, ?_⟩⟩
      simp [List.countP_replicate, hpos]

/-- Every word of the code takes a bit. -/
theorem IsCode.length_pos (h : code.IsCode mayLack lengths) (hw : code.Word s w) :
    0 < w.length := by
  cases h with
  | full hcanonical _ => exact List.length_pos_of_ne_nil (hcanonical.ne_nil hw)
  | empty => nomatch hw
  | @lone t length count _ hpos =>
    obtain ⟨length, rfl⟩ := Nat.exists_eq_add_one_of_ne_zero hpos.ne'
    cases hw <;> exact Nat.succ_pos _

end Huffman

end ManifestBundle.Gzip
