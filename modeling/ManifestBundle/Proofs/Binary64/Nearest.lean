import Mathlib.Algebra.Order.Field.Power
import Mathlib.Data.Rat.Cast.Order
import Mathlib.Tactic.FieldSimp
import Mathlib.Tactic.Linarith
import Mathlib.Tactic.Positivity
import ManifestBundle.Binary64.Nearest

/-!
# What rounds to a number

The reals that round to `m · 2 ^ q` lie between the midpoints to its neighbours
(`IsRounded`); the neighbour below is closer if `m` is the least significand of its
exponent. `nearest` finds the number from any fraction there (`nearest_eq_finite`): the
exponent it starts from is that of the fraction (`InBinade`), which is also that of the
number or, just below a power of two, one less, in which case the significand carries.
-/

namespace ManifestBundle.Binary64

/-- A number that rounds to `m · 2 ^ q`, in units of the last place: a midpoint rounds
    to the even significand. -/
structure IsRounded (m : Nat) (q : Int) (x : ℚ) : Prop where
  lower : (m : ℚ) - (if m = 2 ^ 52 ∧ q ≠ -1074 then 1 / 4 else 1 / 2) ≤ x / 2 ^ q
  upper : x / 2 ^ q ≤ m + 1 / 2
  tie : m % 2 = 1 → (m : ℚ) - 1 / 2 ≠ x / 2 ^ q ∧ x / 2 ^ q ≠ m + 1 / 2

/-- The exponent at which the significand of a number has 53 bits, or the least one. -/
structure InBinade (q : Int) (x : ℚ) : Prop where
  lt : x / 2 ^ q < 2 ^ 53
  le : 2 ^ 52 ≤ x / 2 ^ q ∨ q = -1074
  exponent_ge : -1074 ≤ q

/-! ## Division -/

/-- A quotient is rounded to the natural number that it is nearest to. -/
theorem divNearest_eq {n d m : Nat} (hd : 0 < d) (hlower : (m : ℚ) - 1 / 2 ≤ n / d)
    (hupper : (n / d : ℚ) ≤ m + 1 / 2)
    (htie : m % 2 = 1 → (m : ℚ) - 1 / 2 ≠ n / d ∧ (n / d : ℚ) ≠ m + 1 / 2) :
    divNearest n d = m := by
  have hd' : (0 : ℚ) < d := by exact_mod_cast hd
  have hlow : 2 * (m * d) ≤ 2 * n + d := by
    rw [le_div_iff₀ hd'] at hlower
    have : (2 * (m * d) : ℚ) ≤ 2 * n + d := by linarith
    exact_mod_cast this
  have hupp : 2 * n ≤ 2 * (m * d) + d := by
    rw [div_le_iff₀ hd'] at hupper
    have : (2 * n : ℚ) ≤ 2 * (m * d) + d := by linarith
    exact_mod_cast this
  have hodd : m % 2 = 1 → 2 * (m * d) ≠ 2 * n + d ∧ 2 * n ≠ 2 * (m * d) + d := by
    intro hm
    obtain ⟨h₁, h₂⟩ := htie hm
    rw [ne_eq, eq_div_iff hd'.ne'] at h₁
    rw [ne_eq, div_eq_iff hd'.ne'] at h₂
    refine ⟨fun h => h₁ ?_, fun h => h₂ ?_⟩
    · have : (2 * (m * d) : ℚ) = 2 * n + d := by exact_mod_cast h
      linarith
    · have : (2 * n : ℚ) = 2 * (m * d) + d := by exact_mod_cast h
      linarith
  have hn : d * (n / d) + n % d = n := Nat.div_add_mod n d
  have hr : n % d < d := Nat.mod_lt n hd
  rw [Nat.mul_comm] at hn
  -- The quotient is the number or one less.
  have hq : n / d = m ∨ n / d + 1 = m := by
    have h₁ : n / d < m + 1 := by
      by_contra h
      have := Nat.mul_le_mul_right d (Nat.le_of_not_lt h)
      rw [Nat.succ_mul] at this
      omega
    have h₂ : m < n / d + 2 := by
      by_contra h
      have := Nat.mul_le_mul_right d (Nat.le_of_not_lt h)
      rw [Nat.add_mul] at this
      omega
    omega
  rw [divNearest]
  rcases hq with hq | hq
  · rw [hq] at hn ⊢
    split <;> [rfl; split] <;> omega
  · have hmul : m * d = n / d * d + d := by rw [← hq, Nat.succ_mul]
    split <;> [skip; split] <;> omega

/-! ## Exponents -/

theorem zpow_two_pos (q : Int) : (0 : ℚ) < 2 ^ q :=
  zpow_pos (by norm_num) q

/-- A power with an integer exponent, as a quotient of natural numbers. -/
theorem zpow_eq_div (b : ℕ) (hb : 0 < b) (q : Int) :
    (b : ℚ) ^ q = (b ^ q.toNat : ℕ) / (b ^ (-q).toNat : ℕ) := by
  have hb' : (b : ℚ) ≠ 0 := by exact_mod_cast hb.ne'
  rcases Int.le_total 0 q with hq | hq
  · obtain ⟨k, rfl⟩ := Int.eq_ofNat_of_zero_le hq
    have hneg : (-(k : Int)).toNat = 0 := by omega
    rw [hneg, Int.toNat_natCast, zpow_natCast]
    simp
  · obtain ⟨k, hk⟩ := Int.eq_ofNat_of_zero_le (Int.neg_nonneg.2 hq)
    obtain rfl : q = -k := by omega
    have hpos : (-(k : Int)).toNat = 0 := by omega
    rw [hpos, neg_neg, Int.toNat_natCast, zpow_neg, zpow_natCast]
    simp

theorem scale_pos {n d : Nat} (hd : 0 < d) (q : Int) : 0 < (scale n d q).2 := by
  rw [scale]
  positivity

theorem scale_eq (n d : Nat) (q : Int) :
    ((scale n d q).1 : ℚ) / (scale n d q).2 = n / d / 2 ^ q := by
  have h := zpow_eq_div 2 (by decide) q
  push_cast at h
  rw [scale, h]
  push_cast
  field_simp

/-- A number has one exponent only. -/
theorem InBinade.unique {p q : Int} {x : ℚ} (hp : InBinade p x) (hq : InBinade q x) : p = q := by
  -- Of two exponents the larger one would leave less than 52 bits.
  have key : ∀ {p q : Int}, InBinade p x → InBinade q x → ¬p < q := by
    intro p q hp hq hlt
    have hnormal : 2 ^ 52 ≤ x / 2 ^ q := by
      refine hq.le.resolve_right ?_
      have := hp.exponent_ge
      omega
    have hle : (2 : ℚ) ^ (p + 1) ≤ 2 ^ q := zpow_le_zpow_right₀ (by norm_num) hlt
    rw [zpow_add_one₀ (by norm_num)] at hle
    rw [le_div_iff₀ (zpow_two_pos q)] at hnormal
    have hlt := hp.lt
    rw [div_lt_iff₀ (zpow_two_pos p)] at hlt
    linarith
  rcases Int.lt_trichotomy p q with h | h | h
  · exact absurd h (key hp hq)
  · exact h
  · exact absurd h (key hq hp)

/-- The logarithms of a numerator and a denominator give that of the quotient, up to one. -/
theorem log2_div {n d : Nat} (hn : 0 < n) (hd : 0 < d) :
    (2 : ℚ) ^ ((n.log2 : Int) - d.log2 - 1) < n / d ∧
      (n / d : ℚ) < 2 ^ ((n.log2 : Int) - d.log2 + 1) := by
  have hd' : (0 : ℚ) < d := by exact_mod_cast hd
  have hnlow : (2 : ℚ) ^ n.log2 ≤ n := by exact_mod_cast Nat.log2_self_le hn.ne'
  have hnupp : (n : ℚ) < 2 ^ (n.log2 + 1) := by exact_mod_cast Nat.lt_log2_self
  have hdlow : (2 : ℚ) ^ d.log2 ≤ d := by exact_mod_cast Nat.log2_self_le hd.ne'
  have hdupp : (d : ℚ) < 2 ^ (d.log2 + 1) := by exact_mod_cast Nat.lt_log2_self
  have hpow : (0 : ℚ) < 2 ^ d.log2 := by positivity
  constructor
  · rw [lt_div_iff₀ hd', zpow_sub₀ (by norm_num), zpow_sub₀ (by norm_num), zpow_natCast,
      zpow_natCast]
    rw [pow_succ] at hdupp
    have h : (2 : ℚ) ^ n.log2 / 2 ^ d.log2 / 2 ^ (1 : Int) * d < 2 ^ n.log2 := by
      rw [div_div, div_mul_eq_mul_div, div_lt_iff₀ (by positivity)]
      have hpow : (0 : ℚ) < 2 ^ n.log2 := by positivity
      have := mul_lt_mul_of_pos_left hdupp hpow
      simpa using this
    linarith
  · rw [div_lt_iff₀ hd', zpow_add₀ (by norm_num), zpow_sub₀ (by norm_num), zpow_natCast,
      zpow_natCast]
    rw [pow_succ] at hnupp
    have h : (2 : ℚ) ^ n.log2 * 2 ≤ 2 ^ n.log2 / 2 ^ d.log2 * 2 ^ (1 : Int) * d := by
      rw [div_mul_eq_mul_div, div_mul_eq_mul_div, le_div_iff₀ (by positivity)]
      have hpow : (0 : ℚ) < 2 ^ n.log2 * 2 := by positivity
      have := mul_le_mul_of_nonneg_left hdlow hpow.le
      simpa using this
    linarith

/-- The exponent that a fraction is rounded at. -/
theorem inBinade_exponentFor {n d : Nat} (hn : 0 < n) (hd : 0 < d) :
    InBinade (exponentFor n d) (n / d) := by
  obtain ⟨hlower, hupper⟩ := log2_div hn hd
  rw [exponentFor]
  generalize hq : max (-1074) ((n.log2 : Int) - d.log2 - 53) = q
  have hpos := zpow_two_pos q
  have hge : -1074 ≤ q := by omega
  -- The floor of the quotient is below `2 ^ 53` if and only if the quotient is.
  have hfloor : (scale n d q).1 / (scale n d q).2 < 2 ^ 53 ↔ (n / d / 2 ^ q : ℚ) < 2 ^ 53 := by
    have hscale := scale_pos (n := n) hd q
    have hscale' : (0 : ℚ) < (scale n d q).2 := by exact_mod_cast hscale
    rw [← scale_eq, Nat.div_lt_iff_lt_mul hscale, div_lt_iff₀ hscale']
    exact_mod_cast Iff.rfl
  -- The logarithms place the quotient between `2 ^ 52` and `2 ^ 54`.
  have hbelow : (n / d / 2 ^ q : ℚ) < 2 ^ 54 := by
    have hle : (2 : ℚ) ^ ((n.log2 : Int) - d.log2 + 1) ≤ 2 ^ (54 + q) :=
      zpow_le_zpow_right₀ (by norm_num) (by omega)
    rw [zpow_add₀ (by norm_num) 54 q] at hle
    rw [div_lt_iff₀ hpos]
    exact lt_of_lt_of_le hupper hle
  have habove : q = -1074 ∨ (2 ^ 52 : ℚ) ≤ n / d / 2 ^ q := by
    rcases Int.le_total ((n.log2 : Int) - d.log2 - 53) (-1074) with h | h
    · exact .inl (by omega)
    · have hle : (2 : ℚ) ^ (52 + q) ≤ 2 ^ ((n.log2 : Int) - d.log2 - 1) :=
        zpow_le_zpow_right₀ (by norm_num) (by omega)
      rw [zpow_add₀ (by norm_num)] at hle
      refine .inr ?_
      rw [le_div_iff₀ hpos]
      exact hle.trans hlower.le
  by_cases hlt : (scale n d q).1 / (scale n d q).2 < 2 ^ 53
  · have hx := hfloor.1 hlt
    simp only [hlt, if_true]
    exact ⟨hx, habove.symm, hge⟩
  · have hx := not_lt.1 (mt hfloor.2 hlt)
    have hhalf : (n / d / 2 ^ (q + 1) : ℚ) = n / d / 2 ^ q / 2 := by
      rw [zpow_add_one₀ (by norm_num), div_mul_eq_div_div]
    simp only [hlt, if_false]
    refine ⟨?_, .inl ?_, by omega⟩
    · rw [hhalf, div_lt_iff₀ (by norm_num)]
      linarith
    · rw [hhalf, le_div_iff₀ (by norm_num)]
      linarith

/-! ## Rounding -/

/-- A fraction with the exponent of the number that it rounds to. -/
theorem nearest_of_le {n d m : Nat} {q : Int} (hn : 0 < n) (hd : 0 < d)
    (hcanonical : IsCanonical m q) (h : IsRounded m q (n / d))
    (hlow : (2 ^ 52 : ℚ) ≤ n / d / 2 ^ q ∨ q = -1074) (negative : Bool) :
    nearest negative n d = .finite negative m q hcanonical := by
  have hm : (m : ℚ) + 1 ≤ 2 ^ 53 := by exact_mod_cast hcanonical.lt
  have hupper := h.upper
  have hq : exponentFor n d = q :=
    (inBinade_exponentFor hn hd).unique ⟨by linarith, hlow, hcanonical.exponent_ge⟩
  have hlower : (m : ℚ) - 1 / 2 ≤ n / d / 2 ^ q := by
    refine le_trans ?_ h.lower
    split <;> linarith
  have hround : divNearest (scale n d q).1 (scale n d q).2 = m := by
    apply divNearest_eq (scale_pos hd q) <;> rw [scale_eq]
    · exact hlower
    · exact hupper
    · exact h.tie
  have hne : m ≠ 2 ^ 53 := Nat.ne_of_lt hcanonical.lt
  rw [nearest, if_neg hn.ne', hq]
  simp only [hround, hne, if_false, hcanonical, dif_pos]

/-- A fraction just below a power of two that rounding carries to. -/
theorem nearest_of_lt {n d m : Nat} {q : Int} (hn : 0 < n) (hd : 0 < d)
    (hcanonical : IsCanonical m q) (h : IsRounded m q (n / d))
    (hlow : (n / d / 2 ^ q : ℚ) < 2 ^ 52) (hq : q ≠ -1074) (negative : Bool) :
    nearest negative n d = .finite negative m q hcanonical := by
  have hnormal : 2 ^ 52 ≤ m := hcanonical.normal.resolve_right hq
  have hlower := h.lower
  -- Any larger number is more than half a place away.
  obtain rfl : m = 2 ^ 52 := by
    by_contra hne
    have hm : ((2 ^ 52 : ℕ) : ℚ) + 1 ≤ m := by
      exact_mod_cast Nat.lt_of_le_of_ne hnormal (Ne.symm hne)
    rw [if_neg (fun h => hne h.1)] at hlower
    push_cast at hm
    linarith
  rw [if_pos ⟨rfl, hq⟩] at hlower
  push_cast at hlower
  -- The places below the power of two are half as wide.
  have hdouble : (n / d / 2 ^ (q - 1) : ℚ) = n / d / 2 ^ q * 2 := by
    rw [zpow_sub_one₀ (by norm_num), ← div_eq_mul_inv, div_div_eq_mul_div, mul_div_right_comm]
  have hexponent : exponentFor n d = q - 1 := by
    refine (inBinade_exponentFor hn hd).unique ⟨?_, .inl ?_, ?_⟩
    · rw [hdouble]
      linarith
    · rw [hdouble]
      linarith
    · have := hcanonical.exponent_ge
      omega
  have hround : divNearest (scale n d (q - 1)).1 (scale n d (q - 1)).2 = 2 ^ 53 := by
    apply divNearest_eq (scale_pos hd _)
    · rw [scale_eq, hdouble]
      push_cast
      linarith
    · rw [scale_eq, hdouble]
      push_cast
      linarith
    · intro hodd
      norm_num at hodd
  rw [nearest, if_neg hn.ne', hexponent]
  simp only [hround, if_true, sub_add_cancel, hcanonical, dif_pos]

/-- The number is found from every fraction that rounds to it. -/
theorem nearest_eq_finite {n d m : Nat} {q : Int} (hn : 0 < n) (hd : 0 < d)
    (hcanonical : IsCanonical m q) (h : IsRounded m q (n / d)) (negative : Bool) :
    nearest negative n d = .finite negative m q hcanonical := by
  by_cases hlow : (2 ^ 52 : ℚ) ≤ n / d / 2 ^ q ∨ q = -1074
  · exact nearest_of_le hn hd hcanonical h hlow negative
  · rw [not_or, not_le] at hlow
    exact nearest_of_lt hn hd hcanonical h hlow.1 hlow.2 negative

end ManifestBundle.Binary64
