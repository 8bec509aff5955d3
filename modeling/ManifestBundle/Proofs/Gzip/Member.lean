import ManifestBundle.Proofs.Gzip.Inflate
import ManifestBundle.Proofs.Text.Digits

/-!
# The content of a compressed file is that of its first member

Each part of a member is read where the format has it (`afterHeader?_eq_some_iff`), and what
follows the member is not looked at: octets have a content exactly if a member is at their
front, and it is what that member holds (`content?_eq_some_iff`). Contents that are not too
long have a member that holds them as they are (`isMember_storedMember`).
-/

namespace ManifestBundle.Gzip

variable {os rest : List UInt8}

/-- So many octets are taken exactly if there are so many. -/
theorem take?_eq_some_iff {count : Nat} {front : List UInt8} :
    take? count os = some (front, rest) ↔ front.length = count ∧ os = front ++ rest := by
  rw [take?, Option.ite_none_right_eq_some, Option.some.injEq, Prod.mk.injEq]
  constructor
  · rintro ⟨hle, rfl, rfl⟩
    exact ⟨List.length_take_of_le hle, (List.take_append_drop count os).symm⟩
  · rintro ⟨rfl, rfl⟩
    exact ⟨by simp, List.take_left, List.drop_left⟩

/-! ## Headers -/

/-- An extra field is passed over exactly where one stands. -/
theorem afterExtra?_eq_some_iff :
    afterExtra? os = some rest ↔ ∃ field, IsExtra field ∧ os = field ++ rest := by
  simp only [afterExtra?, Option.bind_eq_bind, Option.bind_eq_some_iff, Prod.exists,
    take?_eq_some_iff, Option.some.injEq]
  constructor
  · rintro ⟨size, _, ⟨hsize, rfl⟩, field, _, ⟨hfield, rfl⟩, rfl⟩
    exact ⟨size ++ field, ⟨size, field, rfl, hsize, hfield⟩, (List.append_assoc ..).symm⟩
  · rintro ⟨_, ⟨size, field, rfl, hsize, hfield⟩, rfl⟩
    exact ⟨size, _, ⟨hsize, List.append_assoc ..⟩, field, rest, ⟨hfield, rfl⟩, rfl⟩

/-- A name or comment is passed over exactly where one stands. -/
theorem afterZero?_eq_some_iff :
    afterZero? os = some rest ↔ ∃ field, IsZeroEnded field ∧ os = field ++ rest := by
  have hall {field : List UInt8} : field.all (· ≠ 0) ↔ 0 ∉ field := by
    rw [List.all_eq_true]
    refine ⟨fun h hzero => by simpa using h 0 hzero, fun h o ho => decide_eq_true ?_⟩
    rintro rfl
    exact h ho
  have hend (more : List UInt8) : ∀ o, (0 :: more).head? = some o → decide (o ≠ 0) = false := by
    rintro o ⟨⟩
    rfl
  rw [afterZero?, Option.ite_none_right_eq_some, Bool.and_eq_true, decide_eq_true_eq,
    decide_eq_true_eq, Option.some.injEq]
  constructor
  · obtain ⟨field, more, rfl, hfield, hmore⟩ := Text.exists_run (· ≠ 0) os
    rw [Text.takeWhile_run hfield hmore]
    rintro ⟨⟨hle, hlt⟩, rfl⟩
    cases more with
    | nil => exact absurd hlt (by simp)
    | cons o more =>
      obtain rfl : o = 0 := by simpa using hmore o rfl
      exact ⟨field ++ [0], ⟨field, rfl, hall.1 hfield, hle⟩, by simp⟩
  · rintro ⟨_, ⟨field, rfl, hzero, hle⟩, rfl⟩
    rw [List.append_assoc, List.singleton_append, Text.takeWhile_run (hall.2 hzero) (hend rest)]
    exact ⟨⟨hle, by simp⟩, by simp⟩

/-- A checksum is passed over exactly where that of the header stands. -/
theorem afterChecksum?_eq_some_iff {front : List UInt8} :
    afterChecksum? front os = some rest ↔
      ∃ field, IsHeaderChecksum front field ∧ os = field ++ rest := by
  simp only [afterChecksum?, Option.bind_eq_bind, Option.bind_eq_some_iff, Prod.exists,
    take?_eq_some_iff, Option.ite_none_right_eq_some, Option.some.injEq]
  constructor
  · rintro ⟨sum, _, ⟨hlength, rfl⟩, hsum, rfl⟩
    exact ⟨sum, ⟨hlength, hsum⟩, rfl⟩
  · rintro ⟨sum, ⟨hlength, hsum⟩, rfl⟩
    exact ⟨sum, rest, ⟨hlength, rfl⟩, hsum, rfl⟩

/-- A field is passed over if the header has the flag for it. -/
theorem field_eq_some_iff {flags flag : UInt8} {after? : List UInt8 → Option (List UInt8)}
    {isPresent : List UInt8 → Prop}
    (h : after? os = some rest ↔ ∃ field, isPresent field ∧ os = field ++ rest) :
    (if flags &&& flag = 0 then some os else after? os) = some rest ↔
      ∃ field, IsField flags flag isPresent field ∧ os = field ++ rest := by
  by_cases hflag : flags &&& flag = 0
  · simp [IsField, hflag]
  · simp [IsField, hflag, h]

theorem take_front (front left : List UInt8) :
    (front ++ left).take ((front ++ left).length - left.length) = front := by
  rw [List.length_append, Nat.add_sub_cancel, List.take_left]

/-- A header starts with ten octets: the magic number, the method, the flags and six more. -/
theorem exists_fixed_of_afterHeader? (h : afterHeader? os = some rest) :
    ∃ flags fixed more, flags &&& 0xe0 = 0 ∧ fixed.length = 6 ∧
      os = 0x1f :: 0x8b :: 8 :: flags :: (fixed ++ more) := by
  simp only [afterHeader?, Option.bind_eq_bind, Option.bind_eq_some_iff, Prod.exists,
    take?_eq_some_iff] at h
  obtain ⟨start, more, ⟨-, rfl⟩, h⟩ := h
  split at h
  · next method flags o₁ o₂ o₃ o₄ o₅ o₆ =>
    rw [Option.bind_none, Option.ite_none_left_eq_some] at h
    obtain ⟨haccepted, -⟩ := h
    simp only [ne_eq, Bool.or_eq_true, decide_eq_true_eq, not_or, not_not] at haccepted
    obtain ⟨rfl, hflags⟩ := haccepted
    exact ⟨flags, [o₁, o₂, o₃, o₄, o₅, o₆], more, hflags, rfl, rfl⟩
  · nomatch h

/-- Behind them stand the fields that there are flags for, the checksum being that of what is
    in front of it. -/
theorem afterHeader?_fixed {flags : UInt8} {fixed more : List UInt8}
    (hflags : flags &&& 0xe0 = 0) (hlength : fixed.length = 6) :
    afterHeader? (0x1f :: 0x8b :: 8 :: flags :: (fixed ++ more)) = some rest ↔
      ∃ extra name comment sum, IsField flags 0x04 IsExtra extra ∧
        IsField flags 0x08 IsZeroEnded name ∧ IsField flags 0x10 IsZeroEnded comment ∧
        IsField flags 0x02 (IsHeaderChecksum
          (0x1f :: 0x8b :: 8 :: flags :: (fixed ++ (extra ++ (name ++ comment))))) sum ∧
        more = extra ++ (name ++ (comment ++ (sum ++ rest))) := by
  -- What has been read is what is in front of what is left.
  have hfront (extra name comment left : List UInt8) := take_front
    (0x1f :: 0x8b :: 8 :: flags :: (fixed ++ (extra ++ (name ++ comment)))) left
  simp only [List.cons_append, List.append_assoc] at hfront
  rcases fixed with _ | ⟨o₁, _ | ⟨o₂, _ | ⟨o₃, _ | ⟨o₄, _ | ⟨o₅, _ | ⟨o₆, _ | _⟩⟩⟩⟩⟩⟩ <;>
    cases hlength
  have htake : take? 10 (0x1f :: 0x8b :: 8 :: flags :: ([o₁, o₂, o₃, o₄, o₅, o₆] ++ more)) =
      some ([0x1f, 0x8b, 8, flags, o₁, o₂, o₃, o₄, o₅, o₆], more) :=
    take?_eq_some_iff.2 ⟨rfl, rfl⟩
  rw [afterHeader?, htake]
  simp only [Option.bind_eq_bind, Option.bind_some, ne_eq, not_true_eq_false, decide_false,
    hflags, Bool.or_false, Bool.false_eq_true, if_false, Option.bind_eq_some_iff,
    field_eq_some_iff afterExtra?_eq_some_iff, field_eq_some_iff afterZero?_eq_some_iff,
    field_eq_some_iff afterChecksum?_eq_some_iff]
  constructor
  · rintro ⟨_, ⟨extra, hextra, rfl⟩, _, ⟨name, hname, rfl⟩, _, ⟨comment, hcomment, rfl⟩, sum, hsum,
      rfl⟩
    rw [hfront] at hsum
    exact ⟨extra, name, comment, sum, hextra, hname, hcomment, hsum, rfl⟩
  · rintro ⟨extra, name, comment, sum, hextra, hname, hcomment, hsum, rfl⟩
    refine ⟨_, ⟨extra, hextra, rfl⟩, _, ⟨name, hname, rfl⟩, _, ⟨comment, hcomment, rfl⟩, sum, ?_,
      rfl⟩
    rw [hfront]
    exact hsum

/-- A header is passed over exactly where one stands. -/
theorem afterHeader?_eq_some_iff :
    afterHeader? os = some rest ↔ ∃ header, IsHeader header ∧ os = header ++ rest := by
  constructor
  · intro h
    obtain ⟨flags, fixed, more, hflags, hlength, rfl⟩ := exists_fixed_of_afterHeader? h
    obtain ⟨extra, name, comment, sum, hextra, hname, hcomment, hsum, rfl⟩ :=
      (afterHeader?_fixed hflags hlength).1 h
    exact ⟨_, .mk hflags hlength hextra hname hcomment hsum, by simp⟩
  · rintro ⟨_, h, rfl⟩
    cases h with
    | @mk flags fixed extra name comment sum hflags hlength hextra hname hcomment hsum =>
      simp only [List.cons_append, List.append_assoc]
      exact (afterHeader?_fixed hflags hlength).2
        ⟨extra, name, comment, sum, hextra, hname, hcomment, hsum, rfl⟩

/-! ## Members -/

/-- Octets have the content of the member at their front, whatever follows it, and no
    content if there is no member. -/
theorem content?_eq_some_iff {content : List UInt8} :
    content? os = some content ↔ ∃ m rest, IsMember m content ∧ os = m ++ rest := by
  simp only [content?, Option.bind_eq_bind, Option.bind_eq_some_iff, Prod.exists,
    afterHeader?_eq_some_iff, inflate?_eq_some_iff, take?_eq_some_iff,
    Option.ite_none_right_eq_some, Option.pure_def, Option.some.injEq]
  constructor
  · rintro ⟨_, ⟨header, hheader, rfl⟩, _, _, ⟨body, hbody, rfl⟩, sum, _, ⟨hlengthSum, rfl⟩, size,
      rest,
      ⟨hlengthSize, rfl⟩, ⟨hsum, hsize⟩, rfl⟩
    exact ⟨_, rest, .mk hheader hbody hlengthSum hsum hlengthSize hsize,
      by simp only [List.append_assoc]⟩
  · rintro ⟨_, rest, h, rfl⟩
    cases h with
    | @mk header body sum size _ hheader hbody hlengthSum hsum hlengthSize hsize =>
      simp only [List.append_assoc]
      exact ⟨_, ⟨header, hheader, rfl⟩, content, _, ⟨body, hbody, rfl⟩, sum, _, ⟨hlengthSum, rfl⟩,
        size, rest, ⟨hlengthSize, rfl⟩, ⟨hsum, hsize⟩, rfl⟩

/-! ## Members without compression -/

/-- A number in so many octets is read back up to what does not fit. -/
theorem littleEndian_octetsOf (count n : Nat) :
    littleEndian (octetsOf count n) = n % 256 ^ count := by
  induction count generalizing n with
  | zero => rw [pow_zero, Nat.mod_one]; rfl
  | succ count ih =>
    have hcons : littleEndian (octetsOf (count + 1) n) =
        n % 256 + 256 * littleEndian (octetsOf count (n / 256)) := rfl
    rw [hcons, ih, pow_succ', Nat.mod_mul]

/-- The member that holds octets as they are, in one block. -/
def storedMember (os : List UInt8) : List UInt8 :=
  [0x1f, 0x8b, 8, 0, 0, 0, 0, 0, 0, 0xff] ++
    (1 :: (octetsOf 2 os.length ++ (octetsOf 2 (0xffff - os.length) ++ os)) ++
      (octetsOf 4 (checksum os).toNat ++ octetsOf 4 os.length))

/-- Octets that fit in a block are held by a member as they are. -/
theorem isMember_storedMember {os : List UInt8} (h : os.length ≤ 0xffff) :
    IsMember (storedMember os) os := by
  have hfield (flag : UInt8) (isPresent : List UInt8 → Prop) : IsField 0 flag isPresent [] := by
    rw [IsField, UInt8.zero_and, if_pos rfl]
  have hheader : IsHeader (0x1f :: 0x8b :: 8 :: 0 ::
      ([0, 0, 0, 0, 0, 0xff] ++ ([] ++ ([] ++ ([] ++ []))))) :=
    .mk (by decide) rfl (hfield _ _) (hfield _ _) (hfield _ _) (hfield _ _)
  have hblock : Block 0 (0 + 3) (List.replicate 5 false ++ (bitsOf 16 os.length ++
      (bitsOf 16 (0xffff - os.length) ++ bits os))) #[] (#[] ++ os.toArray) :=
    .stored (by decide) (by decide) h
  have hbits : bits (1 :: (octetsOf 2 os.length ++ (octetsOf 2 (0xffff - os.length) ++ os))) =
      bitsOf 1 1 ++ (bitsOf 2 0 ++ (List.replicate 5 false ++ (bitsOf 16 os.length ++
        (bitsOf 16 (0xffff - os.length) ++ bits os)))) := by
    rw [bits_cons, bits_append, bits_append, bits_octetsOf, bits_octetsOf]
    rfl
  have hdeflates : Deflates
      (1 :: (octetsOf 2 os.length ++ (octetsOf 2 (0xffff - os.length) ++ os))) os := by
    rw [Array.empty_append] at hblock
    exact ⟨_, [], by rw [hbits, List.append_nil], by decide, .last hblock⟩
  have hsum : littleEndian (octetsOf 4 (checksum os).toNat) = (checksum os).toNat := by
    rw [littleEndian_octetsOf]
    exact Nat.mod_eq_of_lt (checksum os).toNat_lt
  exact .mk hheader hdeflates (length_octetsOf _ _) hsum (length_octetsOf _ _)
    (littleEndian_octetsOf 4 _)

end ManifestBundle.Gzip
