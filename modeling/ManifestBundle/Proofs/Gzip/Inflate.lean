import ManifestBundle.Proofs.Gzip.Bits
import ManifestBundle.Proofs.Gzip.Canonical
import Mathlib.Tactic.SplitIfs

/-!
# Expanding is reading the format

Each reader takes from the front of its input what the format says, and looks at nothing
behind it. For a reader without a loop this is one equivalence. A loop is *sound*, by
induction on its fuel, and *complete*, by induction on the format, where the fuel is enough
as every word of a code takes a bit (`Huffman.IsCode.length_pos`). Codes are made of the lengths
of their words, none of which is greater than the greatest (`le_of_mem_lengthsInOrder`,
`WordLengths.le_of_mem`). Together: a stream is expanded exactly if it is at the front of the
octets (`inflate?_eq_some_iff`).
-/

namespace ManifestBundle.Gzip

variable {bs rest : List Bool} {out out' : Output}

/-! ## Words -/

namespace Huffman

/-- A symbol is read exactly where its word stands, by going down the tree. -/
theorem read?_eq_some_iff {code : Huffman} {s : Nat} :
    code.read? bs = some (s, rest) ↔ ∃ w, code.Word s w ∧ bs = w ++ rest := by
  induction code generalizing bs with
  | free =>
    refine iff_of_false (by simp [read?]) ?_
    rintro ⟨w, h, -⟩
    nomatch h
  | symbol t =>
    rw [read?]
    constructor
    · intro h
      cases h
      exact ⟨[], .symbol s, rfl⟩
    · rintro ⟨w, h, rfl⟩
      cases h
      rfl
  | branch zero one ihZero ihOne =>
    cases bs with
    | nil =>
      refine iff_of_false (by simp [read?]) ?_
      rintro ⟨w, h, hw⟩
      cases h <;> nomatch hw
    | cons b bs =>
      cases b with
      | false =>
        rw [read?, if_neg Bool.false_ne_true, ihZero]
        constructor
        · rintro ⟨w, h, rfl⟩
          exact ⟨_, .zero h, rfl⟩
        · rintro ⟨w, h, hw⟩
          cases h with
          | zero h => exact ⟨_, h, (List.cons.inj hw).2⟩
          | one h => nomatch hw
      | true =>
        rw [read?, if_pos rfl, ihOne]
        constructor
        · rintro ⟨w, h, rfl⟩
          exact ⟨_, .one h, rfl⟩
        · rintro ⟨w, h, hw⟩
          cases h with
          | zero h => nomatch hw
          | one h => exact ⟨_, h, (List.cons.inj hw).2⟩

theorem Word.read? {code : Huffman} {s : Nat} {w : List Bool} (h : code.Word s w)
    (rest : List Bool) : code.read? (w ++ rest) = some (s, rest) :=
  read?_eq_some_iff.2 ⟨w, h, rfl⟩

end Huffman

/-! ## Symbols -/

/-- A value is read exactly where the bits stand that tell it from others of its symbol. -/
theorem extended?_eq_some_iff {table : List (Nat × Nat)} {s value : Nat} :
    extended? table s bs = some (value, rest) ↔
      ∃ w, StandsFor table s w value ∧ bs = w ++ rest := by
  simp only [extended?, Option.bind_eq_bind, Option.pure_def, Option.bind_eq_some_iff, Prod.exists,
    number?_eq_some_iff, Option.some.injEq, Prod.mk.injEq, StandsFor]
  constructor
  · rintro ⟨least, width, hentry, n, rest', ⟨hn, rfl⟩, rfl, rfl⟩
    exact ⟨_, ⟨least, width, n, hentry, hn, rfl, rfl⟩, rfl⟩
  · rintro ⟨w, ⟨least, width, n, hentry, hn, rfl, rfl⟩, rfl⟩
    exact ⟨least, width, hentry, n, rest, ⟨hn, rfl⟩, rfl, rfl⟩

theorem StandsFor.extended? {table : List (Nat × Nat)} {s value : Nat} {w : List Bool}
    (h : StandsFor table s w value) (rest : List Bool) :
    extended? table s (w ++ rest) = some (value, rest) :=
  extended?_eq_some_iff.2 ⟨w, h, rfl⟩

/-- If all least values of a table are positive, then so are all values. -/
theorem StandsFor.pos {table : List (Nat × Nat)} {s value : Nat} {w : List Bool}
    (h : StandsFor table s w value) (hpos : ∀ e ∈ table, 0 < e.1) : 0 < value := by
  obtain ⟨least, width, n, hentry, -, -, rfl⟩ := h
  exact Nat.add_pos_left (hpos _ (List.mem_of_getElem? hentry)) n

theorem lengthTable_pos : ∀ e ∈ lengthTable, 0 < e.1 := by
  decide

theorem distanceTable_pos : ∀ e ∈ distanceTable, 0 < e.1 := by
  decide

/-- One more octet is repeated, and then the others. -/
theorem repeats_succ_iff {distance count : Nat} {copied : Output} (hpos : 0 < distance)
    (hle : distance ≤ out.size) :
    Repeats distance (count + 1) out copied ↔
      Repeats distance count (out.push out[out.size - distance]) copied := by
  constructor
  · intro h
    have hfirst : copied[out.size]? = some out[out.size - distance] := by
      rw [h.new _ le_rfl (by rw [h.size_eq]; omega), h.old _ (by omega)]
      exact Array.getElem?_eq_getElem _
    refine ⟨hpos, by rw [Array.size_push]; omega, by rw [h.size_eq, Array.size_push]; omega,
      fun i hi => ?_, fun i hi => h.new i (by rw [Array.size_push] at hi; omega)⟩
    rw [Array.getElem?_push]
    split
    · next hlast => rw [hlast, hfirst]
    · exact h.old i (by rw [Array.size_push] at hi; omega)
  · intro h
    have hold (i : Nat) (hi : i < out.size) : copied[i]? = out[i]? := by
      rw [h.old i (by rw [Array.size_push]; omega), Array.getElem?_push, if_neg (by omega)]
    have hsize := h.size_eq
    rw [Array.size_push] at hsize
    refine ⟨hpos, hle, by omega, hold, fun i hi hlt => ?_⟩
    rcases Nat.eq_or_lt_of_le hi with rfl | hi
    · rw [h.old _ (by rw [Array.size_push]; omega), Array.getElem?_push, if_pos rfl,
        hold _ (by omega)]
      exact (Array.getElem?_eq_getElem _).symm
    · exact h.new i (by rw [Array.size_push]; omega) hlt

/-- Copying octets one by one adds what the repetition is, as each of them may be one that has
    just been added. -/
theorem copy?_eq_some_iff {distance count : Nat} {copied : Output} (hpos : 0 < distance)
    (hle : distance ≤ out.size) :
    copy? distance count out = some copied ↔ Repeats distance count out copied := by
  induction count generalizing out with
  | zero =>
    rw [copy?, Option.some.injEq]
    constructor
    · rintro rfl
      exact ⟨hpos, hle, rfl, fun _ _ => rfl, fun i hi hlt => absurd hi (Nat.not_le.2 hlt)⟩
    · intro h
      refine Array.ext_getElem? fun i => ?_
      rcases Nat.lt_or_ge i out.size with hi | hi
      · exact (h.old i hi).symm
      · rw [Array.getElem?_eq_none hi, Array.getElem?_eq_none (h.size_eq ▸ hi)]
  | succ count ih =>
    rw [copy?, if_pos hle, Array.getElem?_eq_getElem (by omega), repeats_succ_iff hpos hle]
    exact ih (by rw [Array.size_push]; omega)

/-- Nothing is copied from in front of the first octet. -/
theorem distance_le_of_copy? {distance count : Nat} {copied : Output} (hcount : 0 < count)
    (h : copy? distance count out = some copied) : distance ≤ out.size := by
  obtain ⟨count, rfl⟩ := Nat.exists_eq_add_one_of_ne_zero hcount.ne'
  rw [copy?] at h
  exact (Option.ite_none_right_eq_some.1 h).1

variable {literals distances : Huffman} {fuel : Nat}

/-- What is expanded are symbols up to the end of their block, by induction on the fuel. -/
theorem symbols?_sound (h : symbols? literals distances fuel bs out = some (rest, out')) :
    ∃ w, bs = w ++ rest ∧ Symbols literals distances w out out' := by
  induction fuel generalizing bs out with
  | zero => nomatch h
  | succ fuel ih =>
    simp only [symbols?, Option.bind_eq_bind, Option.bind_eq_some_iff, Prod.exists,
      Huffman.read?_eq_some_iff] at h
    obtain ⟨s, bs, ⟨w, hword, rfl⟩, h⟩ := h
    split_ifs at h with hlt heq
    · obtain ⟨v, rfl, hmore⟩ := ih h
      exact ⟨w ++ v, (List.append_assoc ..).symm, .octet hword hlt hmore⟩
    · cases h
      exact ⟨w, rfl, .done (heq ▸ hword)⟩
    · simp only [Option.bind_eq_some_iff, Prod.exists, extended?_eq_some_iff,
        Huffman.read?_eq_some_iff] at h
      obtain ⟨length, _, ⟨x, hlength, rfl⟩, d, _, ⟨v, hword', rfl⟩, distance, bs,
        ⟨y, hdistance, rfl⟩,
        copied, hcopy, h⟩ := h
      have hle := distance_le_of_copy? (hlength.pos lengthTable_pos) hcopy
      have hrepeats := (copy?_eq_some_iff (hdistance.pos distanceTable_pos) hle).1 hcopy
      obtain ⟨u, rfl, hmore⟩ := ih h
      exact ⟨w ++ (x ++ (v ++ (y ++ u))), by simp only [List.append_assoc],
        .repetition hword (by omega) hlength hword' hdistance hrepeats hmore⟩

/-- Symbols up to the end of their block are expanded, whatever follows them: as every word
    takes a bit, the fuel lasts. -/
theorem symbols?_complete {mayLack : Bool} {lengths : List Nat}
    (hliterals : literals.IsCode mayLack lengths) {w : List Bool}
    (h : Symbols literals distances w out out') (hfuel : w.length ≤ fuel) :
    symbols? literals distances fuel (w ++ rest) out = some (rest, out') := by
  induction h generalizing fuel with
  | @done w out hword =>
    have hpos := hliterals.length_pos hword
    obtain ⟨fuel, rfl⟩ := Nat.exists_eq_add_one_of_ne_zero (by omega : fuel ≠ 0)
    simp [symbols?, hword.read?]
  | @octet s w bs out out' hword hlt hmore ih =>
    have hpos := hliterals.length_pos hword
    rw [List.length_append] at hfuel
    obtain ⟨fuel, rfl⟩ := Nat.exists_eq_add_one_of_ne_zero (by omega : fuel ≠ 0)
    simp only [symbols?, List.append_assoc, hword.read?, Option.bind_eq_bind, Option.bind_some,
      if_pos hlt]
    exact ih (by omega)
  | @repetition s d length distance w x v y bs out copied out' hword hgt hlength hword' hdistance
      hrepeats hmore ih =>
    have hpos := hliterals.length_pos hword
    simp only [List.length_append] at hfuel
    obtain ⟨fuel, rfl⟩ := Nat.exists_eq_add_one_of_ne_zero (by omega : fuel ≠ 0)
    have hcopy := (copy?_eq_some_iff hrepeats.distance_pos hrepeats.distance_le).2 hrepeats
    simp only [symbols?, List.append_assoc, hword.read?, Option.bind_eq_bind, Option.bind_some,
      if_neg (by omega : ¬ s < 256), if_neg (by omega : ¬ s = 256), hlength.extended?,
      hword'.read?, hdistance.extended?, hcopy]
    exact ih (by omega)

/-! ## Codes -/

theorem number?_bitsOf {count n : Nat} (h : n < 2 ^ count) (rest : List Bool) :
    number? count (bitsOf count n ++ rest) = some (n, rest) :=
  number?_eq_some_iff.2 ⟨h, rfl⟩

/-- Numbers of one width are read exactly where the bits of all of them stand. -/
theorem numbers?_eq_some_iff {width count : Nat} {ns : List Nat} :
    numbers? width count bs = some (ns, rest) ↔
      ns.length = count ∧ (∀ n ∈ ns, n < 2 ^ width) ∧ bs = ns.flatMap (bitsOf width) ++ rest := by
  induction count generalizing ns bs rest with
  | zero =>
    rw [numbers?, List.length_eq_zero_iff]
    constructor
    · intro h
      cases h
      exact ⟨rfl, List.forall_mem_nil _, rfl⟩
    · rintro ⟨rfl, -, rfl⟩
      rfl
  | succ count ih =>
    simp only [numbers?, Option.bind_eq_bind, Option.pure_def, Option.bind_eq_some_iff, Prod.exists,
      number?_eq_some_iff, ih, Option.some.injEq, Prod.mk.injEq]
    constructor
    · rintro ⟨n, _, ⟨hn, rfl⟩, ns, _, ⟨rfl, hns, rfl⟩, rfl, rfl⟩
      exact ⟨rfl, List.forall_mem_cons.2 ⟨hn, hns⟩, by simp⟩
    · rintro ⟨hlength, hall, rfl⟩
      obtain ⟨n, ns, rfl⟩ := List.exists_cons_of_length_eq_add_one hlength
      obtain ⟨hn, hns⟩ := List.forall_mem_cons.1 hall
      rw [List.flatMap_cons, List.append_assoc]
      exact ⟨n, _, ⟨hn, rfl⟩, ns, rest, ⟨by simpa using hlength, hns, rfl⟩, rfl, rfl⟩

/-- What is read as lengths completes those that are given, by induction on the fuel. -/
theorem wordLengths?_sound {code : Huffman} {count : Nat} {given lengths : List Nat}
    (h : wordLengths? code count fuel bs given = some (lengths, rest)) :
    ∃ w, bs = w ++ rest ∧ WordLengths code count w given lengths := by
  induction fuel generalizing bs given with
  | zero => nomatch h
  | succ fuel ih =>
    rw [wordLengths?] at h
    split_ifs at h with hmany hcomplete
    · cases h
      exact ⟨[], rfl, .done hcomplete.symm⟩
    · have hincomplete : given.length < count := by omega
      simp only [Option.bind_eq_bind, Option.bind_eq_some_iff, Prod.exists,
        Huffman.read?_eq_some_iff] at h
      obtain ⟨s, bs, ⟨w, hword, rfl⟩, h⟩ := h
      split_ifs at h with hlt hagain hzeros
      · obtain ⟨v, rfl, hmore⟩ := ih h
        exact ⟨w ++ v, (List.append_assoc ..).symm, .length hincomplete hword hlt hmore⟩
      · simp only [Option.bind_eq_some_iff, Prod.exists, number?_eq_some_iff] at h
        obtain ⟨last, hlast, n, bs, ⟨hn, rfl⟩, h⟩ := h
        obtain ⟨v, rfl, hmore⟩ := ih h
        exact ⟨w ++ (bitsOf 2 n ++ v), by simp only [List.append_assoc],
          .again hincomplete (hagain ▸ hword) hn hlast hmore⟩
      · simp only [Option.bind_eq_some_iff, Option.map_eq_some_iff, Prod.exists,
          number?_eq_some_iff, Prod.mk.injEq] at h
        obtain ⟨_, bs, ⟨n, _, ⟨hn, rfl⟩, rfl, rfl⟩, h⟩ := h
        obtain ⟨v, rfl, hmore⟩ := ih h
        exact ⟨w ++ (bitsOf 3 n ++ v), by simp only [List.append_assoc],
          .zeros hincomplete (hzeros ▸ hword) hn hmore⟩
      · simp only [Option.bind_eq_some_iff, Option.map_eq_some_iff, Prod.exists,
          number?_eq_some_iff, Prod.mk.injEq] at h
        obtain ⟨_, bs, ⟨n, _, ⟨hn, rfl⟩, rfl, rfl⟩, h⟩ := h
        obtain ⟨v, rfl, hmore⟩ := ih h
        exact ⟨w ++ (bitsOf 7 n ++ v), by simp only [List.append_assoc],
          .manyZeros hincomplete hword (by omega) hn hmore⟩

/-- Bits that complete the lengths are read as them: every step adds a length, so the fuel
    lasts. -/
theorem wordLengths?_complete {code : Huffman} {count : Nat} {given lengths : List Nat}
    {w : List Bool} (h : WordLengths code count w given lengths)
    (hfuel : count < given.length + fuel) :
    wordLengths? code count fuel (w ++ rest) given = some (lengths, rest) := by
  induction h generalizing fuel with
  | @done given hcomplete =>
    obtain ⟨fuel, rfl⟩ := Nat.exists_eq_add_one_of_ne_zero (by omega : fuel ≠ 0)
    rw [wordLengths?, if_neg (by omega), if_pos hcomplete.symm]
    rfl
  | @length s w bs given lengths hincomplete hword hlt hmore ih =>
    obtain ⟨fuel, rfl⟩ := Nat.exists_eq_add_one_of_ne_zero (by omega : fuel ≠ 0)
    rw [wordLengths?, if_neg (by omega), if_neg (by omega)]
    simp only [List.append_assoc, hword.read?, Option.bind_eq_bind, Option.bind_some, if_pos hlt]
    exact ih (by rw [List.length_cons]; omega)
  | @again n last w bs given lengths hincomplete hword hlt hlast hmore ih =>
    obtain ⟨fuel, rfl⟩ := Nat.exists_eq_add_one_of_ne_zero (by omega : fuel ≠ 0)
    rw [wordLengths?, if_neg (by omega), if_neg (by omega)]
    simp only [List.append_assoc, hword.read?, Option.bind_eq_bind, Option.bind_some,
      if_neg (by decide : ¬ 16 < 16), if_true, hlast, number?_bitsOf hlt]
    exact ih (by rw [List.length_append, List.length_replicate]; omega)
  | @zeros n w bs given lengths hincomplete hword hlt hmore ih =>
    obtain ⟨fuel, rfl⟩ := Nat.exists_eq_add_one_of_ne_zero (by omega : fuel ≠ 0)
    rw [wordLengths?, if_neg (by omega), if_neg (by omega)]
    simp only [List.append_assoc, hword.read?, Option.bind_eq_bind, Option.bind_some,
      if_neg (by decide : ¬ 17 < 16), if_neg (by decide : ¬ 17 = 16), if_true, number?_bitsOf hlt,
      Option.map_some]
    exact ih (by rw [List.length_append, List.length_replicate]; omega)
  | @manyZeros s n w bs given lengths hincomplete hword hgt hlt hmore ih =>
    obtain ⟨fuel, rfl⟩ := Nat.exists_eq_add_one_of_ne_zero (by omega : fuel ≠ 0)
    rw [wordLengths?, if_neg (by omega), if_neg (by omega)]
    simp only [List.append_assoc, hword.read?, Option.bind_eq_bind, Option.bind_some,
      if_neg (by omega : ¬ s < 16), if_neg (by omega : ¬ s = 16), if_neg (by omega : ¬ s = 17),
      number?_bitsOf hlt, Option.map_some]
    exact ih (by rw [List.length_append, List.length_replicate]; omega)

/-- The lengths of the words for lengths are given in three bits. -/
theorem le_of_mem_lengthsInOrder {given : List Nat} (h : ∀ n ∈ given, n < 2 ^ 3) :
    ∀ n ∈ lengthsInOrder given, n ≤ Huffman.maxLength := by
  intro n hn
  obtain ⟨s, -, rfl⟩ := List.mem_map.1 hn
  cases hlookup : (lengthOrder.zip given).lookup s with
  | none => exact Nat.zero_le _
  | some n =>
    obtain ⟨front, back, hzip, -⟩ := List.lookup_eq_some_iff.1 hlookup
    have hmem : (s, n) ∈ lengthOrder.zip given := by simp [hzip]
    exact (Nat.le_of_lt (h n (List.of_mem_zip hmem).2)).trans (by decide)

/-- A symbol that is a length is less than sixteen, and all others repeat a length or zero. -/
theorem WordLengths.le_of_mem {code : Huffman} {count : Nat} {w : List Bool}
    {given lengths : List Nat} (h : WordLengths code count w given lengths)
    (hgiven : ∀ n ∈ given, n ≤ Huffman.maxLength) : ∀ n ∈ lengths, n ≤ Huffman.maxLength := by
  have hreplicate {k m : Nat} {ns : List Nat} (hm : m ≤ Huffman.maxLength)
      (hns : ∀ n ∈ ns, n ≤ Huffman.maxLength) :
      ∀ n ∈ List.replicate k m ++ ns, n ≤ Huffman.maxLength := by
    intro n hn
    rcases List.mem_append.1 hn with hn | hn
    · exact (List.eq_of_mem_replicate hn).le.trans hm
    · exact hns n hn
  induction h with
  | done => exact hgiven
  | length _ _ hlt _ ih => exact ih (List.forall_mem_cons.2 ⟨Nat.le_of_lt_succ hlt, hgiven⟩)
  | again _ _ _ hlast _ ih => exact ih (hreplicate (hgiven _ (List.mem_of_head? hlast)) hgiven)
  | zeros _ _ _ _ ih => exact ih (hreplicate (Nat.zero_le _) hgiven)
  | manyZeros _ _ _ _ _ ih => exact ih (hreplicate (Nat.zero_le _) hgiven)

/-- Of the lengths that are given the codes are made that they settle. -/
theorem WordLengths.ofLengths?_eq_some_iff {lengthCode code : Huffman} {count : Nat} {w : List Bool}
    {lengths part : List Nat} (h : WordLengths lengthCode count w [] lengths)
    (hpart : part ⊆ lengths.reverse) {mayLack : Bool} :
    Huffman.ofLengths? mayLack part = some code ↔ code.IsCode mayLack part :=
  Huffman.ofLengths?_eq_some_iff fun n hn =>
    h.le_of_mem (List.forall_mem_nil _) n (List.mem_reverse.1 (hpart hn))

/-- The code for lengths is read exactly where the lengths of its own words stand. -/
theorem lengthCode?_eq_some_iff {count : Nat} {code : Huffman} :
    lengthCode? count bs = some (code, rest) ↔
      ∃ given : List Nat, (given.length = count ∧ ∀ n ∈ given, n < 2 ^ 3) ∧
        code.IsCode false (lengthsInOrder given) ∧ bs = given.flatMap (bitsOf 3) ++ rest := by
  simp only [lengthCode?, Option.bind_eq_bind, Option.pure_def, Option.bind_eq_some_iff,
    Prod.exists, numbers?_eq_some_iff, Option.some.injEq, Prod.mk.injEq]
  constructor
  · rintro ⟨given, _, ⟨hlength, hgiven, rfl⟩, _, hcode, rfl, rfl⟩
    exact ⟨given, ⟨hlength, hgiven⟩,
      (Huffman.ofLengths?_eq_some_iff (le_of_mem_lengthsInOrder hgiven)).1 hcode, rfl⟩
  · rintro ⟨given, ⟨hlength, hgiven⟩, hcode, rfl⟩
    exact ⟨given, rest, ⟨hlength, hgiven, rfl⟩, code,
      (Huffman.ofLengths?_eq_some_iff (le_of_mem_lengthsInOrder hgiven)).2 hcode, rfl, rfl⟩

/-- The codes of a block are read exactly where the format gives them. -/
theorem givenCodes?_eq_some_iff :
    givenCodes? bs = some ((literals, distances), rest) ↔
      ∃ w, GivenCodes w literals distances ∧ bs = w ++ rest := by
  constructor
  · intro h
    simp only [givenCodes?, Option.bind_eq_bind, Option.bind_eq_some_iff, Prod.exists,
      number?_eq_some_iff] at h
    obtain ⟨literalCount, _, ⟨-, rfl⟩, distanceCount, _, ⟨-, rfl⟩, lengthCount, _, ⟨hlt, rfl⟩, h⟩ :=
      h
    split_ifs at h with hmany
    · nomatch h
    · simp only [Bool.or_eq_true, decide_eq_true_eq, not_or, Nat.not_lt] at hmany
      simp only [Option.pure_def, Option.bind_eq_some_iff, Prod.exists, lengthCode?_eq_some_iff,
        Option.some.injEq, Prod.mk.injEq] at h
      obtain ⟨code, _, ⟨given, ⟨hlength, hgiven⟩, hcode, rfl⟩, lengths, _, hread, _, hliterals, _,
        hdistances, ⟨rfl, rfl⟩, rfl⟩ := h
      obtain ⟨w, rfl, hlengths⟩ := wordLengths?_sound hread
      rw [hlengths.ofLengths?_eq_some_iff (List.take_subset ..)] at hliterals
      rw [hlengths.ofLengths?_eq_some_iff (List.drop_subset ..)] at hdistances
      exact ⟨_, .mk (by omega) (by omega) hlt hlength hgiven hcode hlengths hliterals hdistances,
        by simp only [List.append_assoc]⟩
  · rintro ⟨_, h, rfl⟩
    cases h with
    | @mk literalCount distanceCount lengthCount given lengths code _ _ w hliteral hdistance hlt
        hlength hgiven hcode hlengths hliterals hdistances =>
      have hliteral' : literalCount < 2 ^ 5 := by omega
      have hdistance' : distanceCount < 2 ^ 5 := by omega
      have hread : lengthCode? (lengthCount + 4) (given.flatMap (bitsOf 3) ++ (w ++ rest)) =
          some (code, w ++ rest) :=
        lengthCode?_eq_some_iff.2 ⟨given, ⟨hlength, hgiven⟩, hcode, rfl⟩
      have hwords : wordLengths? code (literalCount + 257 + (distanceCount + 1))
          (literalCount + 257 + (distanceCount + 1) + 1) (w ++ rest) [] = some (lengths, rest) :=
        wordLengths?_complete hlengths (by rw [List.length_nil]; omega)
      have hfew : ¬ (decide (29 < literalCount) || decide (29 < distanceCount)) = true := by
        simp only [Bool.or_eq_true, decide_eq_true_eq]
        omega
      rw [← hlengths.ofLengths?_eq_some_iff (List.take_subset ..)] at hliterals
      rw [← hlengths.ofLengths?_eq_some_iff (List.drop_subset ..)] at hdistances
      simp only [givenCodes?, List.append_assoc, Option.bind_eq_bind, Option.bind_some, hread,
        number?_bitsOf hliteral', number?_bitsOf hdistance', number?_bitsOf hlt, Option.pure_def,
        if_neg hfew, hwords, hliterals, hdistances]

theorem GivenCodes.exists_isCode {w : List Bool} (h : GivenCodes w literals distances) :
    ∃ lengths, literals.IsCode true lengths := by
  obtain ⟨-, -, -, -, -, -, -, hliterals, -⟩ := h
  exact ⟨_, hliterals⟩

/-- The fixed codes are those that their lengths settle. -/
theorem fixedCodes?_eq_some_iff :
    fixedCodes? = some (literals, distances) ↔
      literals.IsCode false fixedLiteralLengths ∧ distances.IsCode false (List.replicate 32 5) := by
  have hliterals : ∀ n ∈ fixedLiteralLengths, n ≤ Huffman.maxLength := by
    intro n hn
    simp only [fixedLiteralLengths, List.mem_append, List.mem_replicate] at hn
    rw [Huffman.maxLength]
    omega
  have hdistances : ∀ n ∈ List.replicate 32 5, n ≤ Huffman.maxLength := by
    decide
  rw [← Huffman.ofLengths?_eq_some_iff hliterals, ← Huffman.ofLengths?_eq_some_iff hdistances]
  simp only [fixedCodes?, Option.bind_eq_bind, Option.bind_eq_some_iff, Option.pure_def,
    Option.some.injEq, Prod.mk.injEq]
  constructor
  · rintro ⟨_, hliterals, _, hdistances, rfl, rfl⟩
    exact ⟨hliterals, hdistances⟩
  · rintro ⟨hliterals, hdistances⟩
    exact ⟨_, hliterals, _, hdistances, rfl, rfl⟩

/-! ## Blocks -/

variable {type before : Nat}

/-- What is left of a stream of octets tells how far the start of the next octet is. -/
theorem align_eq_iff (haligned : (before + bs.length) % 8 = 0) :
    align bs = rest ↔
      ∃ padding, bs = padding ++ rest ∧ padding.length < 8 ∧ (before + padding.length) % 8 = 0 := by
  constructor
  · rintro rfl
    have hle : bs.length % 8 ≤ bs.length := Nat.mod_le _ _
    refine ⟨bs.take (bs.length % 8), (List.take_append_drop _ _).symm, ?_⟩
    rw [List.length_take, min_eq_left hle]
    omega
  · rintro ⟨padding, rfl, hlt, hpadding⟩
    rw [List.length_append] at haligned
    have hlength : padding.length = (padding ++ rest).length % 8 := by
      rw [List.length_append]
      omega
    rw [align, ← hlength, List.drop_left]

/-- Octets as they are are read exactly from where the next octet of the stream starts. -/
theorem stored?_eq_some_iff (haligned : (before + bs.length) % 8 = 0) :
    stored? bs out = some (rest, out') ↔ ∃ w, Block 0 before w out out' ∧ bs = w ++ rest := by
  simp only [stored?, Option.bind_eq_bind, Option.pure_def, Option.bind_eq_some_iff, Prod.exists,
    number?_eq_some_iff]
  constructor
  · rintro ⟨size, _, ⟨-, halign⟩, inverted, _, ⟨hinverted, rfl⟩, h⟩
    split_ifs at h with hsum
    · nomatch h
    · simp only [Option.bind_eq_some_iff, Prod.exists, octets?_eq_some_iff, Option.some.injEq,
        Prod.mk.injEq] at h
      obtain ⟨os, _, ⟨rfl, rfl⟩, rfl, rfl⟩ := h
      obtain ⟨padding, rfl, hlt, hpadding⟩ := (align_eq_iff haligned).1 halign
      obtain rfl : inverted = 0xffff - os.length := by omega
      exact ⟨_, .stored hlt hpadding (by omega), by simp only [List.append_assoc]⟩
  · rintro ⟨w, h, rfl⟩
    cases h with
    | @stored _ padding os _ hlt hpadding hle =>
      simp only [List.append_assoc] at haligned ⊢
      refine ⟨os.length, _, ⟨by omega, (align_eq_iff haligned).2 ⟨padding, rfl, hlt, hpadding⟩⟩,
        0xffff - os.length, _, ⟨by omega, rfl⟩, ?_⟩
      rw [if_neg (by omega), octets?_eq_some_iff.2 ⟨rfl, rfl⟩]
      rfl

/-- What is expanded as a block is one of its type. -/
theorem block?_sound (before : Nat) (haligned : (before + bs.length) % 8 = 0)
    (h : block? type fuel bs out = some (rest, out')) :
    ∃ w, Block type before w out out' ∧ bs = w ++ rest := by
  unfold block? at h
  split at h
  · exact (stored?_eq_some_iff haligned).1 h
  · simp only [Option.bind_eq_bind, Option.bind_eq_some_iff, Prod.exists,
      fixedCodes?_eq_some_iff] at h
    obtain ⟨literals, distances, ⟨hliterals, hdistances⟩, h⟩ := h
    obtain ⟨w, rfl, hsymbols⟩ := symbols?_sound h
    exact ⟨w, .fixed hliterals hdistances hsymbols, rfl⟩
  · simp only [Option.bind_eq_bind, Option.bind_eq_some_iff, Prod.exists,
      givenCodes?_eq_some_iff] at h
    obtain ⟨literals, distances, bs, ⟨v, hcodes, rfl⟩, h⟩ := h
    obtain ⟨w, rfl, hsymbols⟩ := symbols?_sound h
    exact ⟨v ++ w, .given hcodes hsymbols, (List.append_assoc ..).symm⟩
  · nomatch h

/-- A block is expanded to what it adds, whatever follows it. -/
theorem block?_complete {w : List Bool} (h : Block type before w out out')
    (haligned : (before + (w ++ rest).length) % 8 = 0) (hfuel : w.length ≤ fuel) :
    block? type fuel (w ++ rest) out = some (rest, out') := by
  cases type with
  | zero => exact (stored?_eq_some_iff haligned).2 ⟨w, h, rfl⟩
  | succ type =>
    cases h with
    | @fixed _ _ literals distances _ _ hliterals hdistances hsymbols =>
      rw [block?, fixedCodes?_eq_some_iff.2 ⟨hliterals, hdistances⟩]
      exact symbols?_complete hliterals hsymbols hfuel
    | @given _ v w literals distances _ _ hcodes hsymbols =>
      obtain ⟨lengths, hliterals⟩ := hcodes.exists_isCode
      rw [List.length_append] at hfuel
      rw [block?, List.append_assoc, givenCodes?_eq_some_iff.2 ⟨v, hcodes, rfl⟩]
      exact symbols?_complete hliterals hsymbols (by omega)

theorem Block.type_lt {w : List Bool} (h : Block type before w out out') : type < 2 ^ 2 := by
  cases h <;> decide

/-- What is expanded are blocks up to the last one, by induction on the fuel. -/
theorem blocks?_sound (before : Nat) (haligned : (before + bs.length) % 8 = 0)
    (h : blocks? fuel bs out = some (rest, out')) :
    ∃ w, Blocks before w out out' ∧ bs = w ++ rest := by
  induction fuel generalizing before bs out with
  | zero => nomatch h
  | succ fuel ih =>
    simp only [blocks?, Option.bind_eq_bind, Option.bind_eq_some_iff, Prod.exists,
      number?_eq_some_iff] at h
    obtain ⟨isLast, _, ⟨hisLast, rfl⟩, type, bs, ⟨htype, rfl⟩, more, middle, hread, h⟩ := h
    simp only [List.length_append, length_bitsOf] at haligned
    obtain ⟨w, hblock, rfl⟩ := block?_sound (before + 3) (by omega) hread
    split_ifs at h with hlast
    · subst hlast
      cases h
      exact ⟨_, .last hblock, by simp only [List.append_assoc]⟩
    · obtain rfl : isLast = 0 := by omega
      rw [List.length_append] at haligned
      obtain ⟨v, hblocks, rfl⟩ := ih (before + 3 + w.length) (by omega) h
      exact ⟨_, .more hblock hblocks, by simp only [List.append_assoc]⟩

/-- Blocks up to the last one are expanded to what they add, whatever follows them. -/
theorem blocks?_complete {w : List Bool} (h : Blocks before w out out')
    (haligned : (before + (w ++ rest).length) % 8 = 0) (hfuel : w.length < fuel) :
    blocks? fuel (w ++ rest) out = some (rest, out') := by
  induction h generalizing fuel with
  | @last type before w out out' hblock =>
    obtain ⟨fuel, rfl⟩ := Nat.exists_eq_add_one_of_ne_zero (by omega : fuel ≠ 0)
    simp only [List.length_append, length_bitsOf] at haligned hfuel
    have hread : block? type (fuel + 1) (w ++ rest) out = some (rest, out') :=
      block?_complete hblock (by rw [List.length_append]; omega) (by omega)
    simp only [blocks?, List.append_assoc, number?_bitsOf (by decide : 1 < 2 ^ 1),
      number?_bitsOf hblock.type_lt, hread, Option.bind_eq_bind, Option.bind_some, if_true,
      Option.pure_def]
  | @more type before w bs out middle out' hblock hblocks ih =>
    obtain ⟨fuel, rfl⟩ := Nat.exists_eq_add_one_of_ne_zero (by omega : fuel ≠ 0)
    simp only [List.length_append, length_bitsOf] at haligned hfuel
    have hread : block? type (fuel + 1) (w ++ (bs ++ rest)) out = some (bs ++ rest, middle) :=
      block?_complete hblock (by simp only [List.length_append]; omega) (by omega)
    simp only [blocks?, List.append_assoc, number?_bitsOf (by decide : 0 < 2 ^ 1),
      number?_bitsOf hblock.type_lt, hread, Option.bind_eq_bind, Option.bind_some,
      if_neg (by decide : ¬ 0 = 1)]
    exact ih (by rw [List.length_append]; omega) (by omega)

/-! ## Streams -/

/-- A stream is expanded to what it encodes, and nothing behind it is looked at. -/
theorem inflate?_eq_some_iff {os content more : List UInt8} :
    inflate? os = some (content, more) ↔ ∃ m, Deflates m content ∧ os = m ++ more := by
  have haligned : (0 + (bits os).length) % 8 = 0 := by
    rw [length_bits, Nat.zero_add, Nat.mul_mod_right]
  constructor
  · intro h
    simp only [inflate?, Option.bind_eq_bind, Option.bind_eq_some_iff, Prod.exists,
      Option.pure_def, Option.some.injEq, Prod.mk.injEq] at h
    obtain ⟨rest, out, h, rfl, rfl⟩ := h
    obtain ⟨w, hblocks, hbits⟩ := blocks?_sound 0 haligned h
    have hlength := congrArg List.length hbits
    rw [length_bits, List.length_append] at hlength
    -- The stream ends with the octet in which its last block does.
    obtain ⟨n, hn⟩ : ∃ n, n = os.length - rest.length / 8 := ⟨_, rfl⟩
    have hsplit : bits (os.take n) ++ bits (os.drop n) = w ++ rest := by
      rw [← bits_append, List.take_append_drop, hbits]
    have hlengthTake : (bits (os.take n)).length = 8 * n := by
      rw [length_bits, List.length_take]
      omega
    obtain ⟨padding, hpadding⟩ : w <+: bits (os.take n) :=
      List.prefix_of_prefix_length_le ⟨rest, hsplit.symm⟩ (List.prefix_append _ _) (by omega)
    refine ⟨os.take n, ⟨w, padding, hpadding.symm, ?_, hblocks⟩,
      by rw [← hn, List.take_append_drop]⟩
    have := congrArg List.length hpadding
    rw [List.length_append] at this
    omega
  · rintro ⟨m, ⟨w, padding, hbits, hlt, hblocks⟩, rfl⟩
    have hwhole : bits (m ++ more) = w ++ (padding ++ bits more) := by
      rw [bits_append, hbits, List.append_assoc]
    have hread : blocks? ((bits (m ++ more)).length + 1) (bits (m ++ more)) #[] =
        some (padding ++ bits more, content.toArray) := by
      rw [hwhole] at haligned ⊢
      exact blocks?_complete hblocks haligned (by rw [List.length_append]; omega)
    have hdrop : (m ++ more).length - (padding ++ bits more).length / 8 = m.length := by
      simp only [List.length_append, length_bits]
      omega
    simp only [inflate?, Option.bind_eq_bind, hread, Option.bind_some, hdrop, List.drop_left,
      Option.pure_def]

end ManifestBundle.Gzip
