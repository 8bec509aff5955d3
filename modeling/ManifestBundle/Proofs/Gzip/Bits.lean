import ManifestBundle.Gzip.Bits
import Mathlib.Algebra.Group.Nat.Defs

/-!
# Bits and what they are read as

Reading from a stream of bits takes what is read from its front: a number is read where its
bits stand (`number?_eq_some_iff`), and octets where theirs do (`octets?_eq_some_iff`).
-/

namespace ManifestBundle.Gzip

@[simp] theorem length_bitsOf (count n : Nat) : (bitsOf count n).length = count := by
  induction count generalizing n with
  | zero => rfl
  | succ count ih => rw [bitsOf, List.length_cons, ih]

@[simp] theorem bits_nil : bits [] = [] :=
  rfl

@[simp] theorem bits_cons (o : UInt8) (os : List UInt8) :
    bits (o :: os) = bitsOf 8 o.toNat ++ bits os :=
  List.flatMap_cons

/-- Bits of octets follow each other as the octets do. -/
@[simp] theorem bits_append (os ps : List UInt8) : bits (os ++ ps) = bits os ++ bits ps :=
  List.flatMap_append

/-- Every octet has eight bits. -/
@[simp] theorem length_bits (os : List UInt8) : (bits os).length = 8 * os.length := by
  induction os with
  | nil => rfl
  | cons o os ih =>
    rw [bits_cons, List.length_append, length_bitsOf, ih, List.length_cons]
    omega

variable {count n : Nat} {bs rest : List Bool}

/-- A number is read exactly where its bits stand, and nothing behind them is looked at. -/
theorem number?_eq_some_iff :
    number? count bs = some (n, rest) ↔ n < 2 ^ count ∧ bs = bitsOf count n ++ rest := by
  induction count generalizing n bs rest with
  | zero =>
    rw [number?, bitsOf, List.nil_append, pow_zero, Nat.lt_one_iff]
    simp [eq_comm]
  | succ count ih =>
    cases bs with
    | nil => simp [number?, bitsOf]
    | cons b bs =>
      simp only [number?, Option.bind_eq_bind, Option.pure_def, Option.bind_eq_some_iff, ih,
        Option.some.injEq, Prod.exists, Prod.mk.injEq, bitsOf, List.cons_append, List.cons.injEq,
        pow_succ]
      constructor
      · rintro ⟨m, rest', ⟨hm, rfl⟩, rfl, rfl⟩
        have hbit : b.toNat ≤ 1 := Bool.toNat_le b
        have hdiv : (b.toNat + 2 * m) / 2 = m := by omega
        have hmod : (b.toNat + 2 * m) % 2 = b.toNat := by omega
        rw [hdiv, hmod]
        exact ⟨by omega, by cases b <;> rfl, rfl⟩
      · rintro ⟨hn, rfl, rfl⟩
        refine ⟨n / 2, rest, ⟨by omega, rfl⟩, ?_, rfl⟩
        rcases Nat.mod_two_eq_zero_or_one n with h | h <;> simp [h] <;> omega

/-- So many octets are read exactly where their bits stand. -/
theorem octets?_eq_some_iff {os : List UInt8} :
    octets? count bs = some (os, rest) ↔ os.length = count ∧ bs = bits os ++ rest := by
  induction count generalizing os bs rest with
  | zero =>
    rw [octets?, List.length_eq_zero_iff]
    constructor
    · intro h
      cases h
      exact ⟨rfl, rfl⟩
    · rintro ⟨rfl, rfl⟩
      rfl
  | succ count ih =>
    simp only [octets?, Option.bind_eq_bind, Option.pure_def, Option.bind_eq_some_iff,
      number?_eq_some_iff, ih, Option.some.injEq, Prod.exists, Prod.mk.injEq]
    constructor
    · rintro ⟨n, bs', ⟨hn, rfl⟩, os', rest', ⟨rfl, rfl⟩, rfl, rfl⟩
      have hn' : (UInt8.ofNat n).toNat = n := Nat.mod_eq_of_lt hn
      simp [hn']
    · rintro ⟨hlength, rfl⟩
      obtain ⟨o, os, rfl⟩ := List.exists_cons_of_length_eq_add_one hlength
      rw [bits_cons, List.append_assoc]
      exact ⟨o.toNat, _, ⟨o.toNat_lt, rfl⟩, os, rest, ⟨by simpa using hlength, rfl⟩,
        by simp, rfl⟩

/-! ## Numbers in octets -/

/-- A number in so many octets, the least first. -/
def octetsOf : (count : Nat) → Nat → List UInt8
  | 0, _ => []
  | count + 1, n => UInt8.ofNat n :: octetsOf count (n / 256)

@[simp] theorem length_octetsOf (count n : Nat) : (octetsOf count n).length = count := by
  induction count generalizing n with
  | zero => rfl
  | succ count ih => rw [octetsOf, List.length_cons, ih]

/-- The bits of a number are the lower ones and then those of what is above them. -/
theorem bitsOf_add (count count' n : Nat) :
    bitsOf (count + count') n = bitsOf count n ++ bitsOf count' (n / 2 ^ count) := by
  induction count generalizing n with
  | zero => simp [bitsOf]
  | succ count ih =>
    rw [Nat.add_right_comm, bitsOf, bitsOf, ih, List.cons_append, Nat.div_div_eq_div_mul, pow_succ']

/-- The lower bits of a number do not tell what is above them. -/
theorem bitsOf_mod (count n : Nat) : bitsOf count (n % 2 ^ count) = bitsOf count n := by
  induction count generalizing n with
  | zero => rfl
  | succ count ih =>
    have hdiv : n % 2 ^ (count + 1) / 2 = n / 2 % 2 ^ count := by
      rw [pow_succ', Nat.mod_mul_right_div_self]
    have hmod : n % 2 ^ (count + 1) % 2 = n % 2 :=
      Nat.mod_mod_of_dvd n ⟨2 ^ count, pow_succ' 2 count⟩
    rw [bitsOf, bitsOf, hdiv, hmod, ih]

/-- A number in octets has the bits that it has in one piece. -/
theorem bits_octetsOf (count n : Nat) : bits (octetsOf count n) = bitsOf (8 * count) n := by
  induction count generalizing n with
  | zero => rfl
  | succ count ih =>
    have hoctet : bitsOf 8 (UInt8.ofNat n).toNat = bitsOf 8 n := bitsOf_mod 8 n
    rw [octetsOf, bits_cons, ih, hoctet, Nat.mul_succ, Nat.add_comm, bitsOf_add]
    rfl

end ManifestBundle.Gzip
