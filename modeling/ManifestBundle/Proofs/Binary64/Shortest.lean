import Mathlib.Data.Nat.Cast.Field
import ManifestBundle.Binary64.Shortest
import ManifestBundle.Proofs.Binary64.Nearest

/-!
# The shortest decimal reads back

Every decimal number that `shortest` may give rounds to the number it was found for
(`isRounded_shortest`): a point of a grid is taken only if it lies in the interval, and
the finest grid is so fine that the point nearest to the number does. The last needs the
magnitude that the search starts from to be right, or too small; it is estimated by
the logarithm of two, `30103 / 100000`, which is close enough over the range of the
format (`ten_zpow_le`).
-/

namespace ManifestBundle.Binary64

/-- The number that digits and an exponent stand for. -/
def Decimal.value (d : Decimal) : ℚ :=
  d.digits * 10 ^ d.exponent

/-! ## Grids -/

theorem commonFactors_pos (k q : Int) :
    0 < (commonFactors k q).1 ∧ 0 < (commonFactors k q).2 := by
  rw [commonFactors]
  constructor <;> positivity

theorem commonFactors_eq (k q : Int) :
    ((commonFactors k q).1 : ℚ) / (commonFactors k q).2 = 10 ^ k / 2 ^ q := by
  have htwo := zpow_eq_div 2 (by decide) q
  have hten := zpow_eq_div 10 (by decide) k
  push_cast at htwo hten
  rw [commonFactors, htwo, hten]
  push_cast
  field_simp

/-- How far below the number its interval starts, in quarters of the last place. -/
def lowQuarters (m : Nat) (q : Int) : Nat :=
  if m = 2 ^ 52 ∧ q ≠ -1074 then 1 else 2

theorem lowQuarters_eq (m : Nat) (q : Int) :
    (if m = 2 ^ 52 ∧ q ≠ -1074 then 1 / 4 else 1 / 2 : ℚ) = lowQuarters m q / 4 := by
  rw [lowQuarters]
  split <;> norm_num

theorem lowQuarters_le (m : Nat) (q : Int) : lowQuarters m q ≤ 2 := by
  rw [lowQuarters]
  split <;> decide

theorem lowQuarters_of_odd {m : Nat} (hm : m % 2 = 1) (q : Int) : lowQuarters m q = 2 := by
  rw [lowQuarters, if_neg]
  rintro ⟨rfl, -⟩
  norm_num at hm

/-- A point of a grid that is not above the number but in its interval. -/
theorem isRounded_of_le {m y a b : Nat} {q : Int} {x : ℚ} (hm : 0 < m) (hb : 0 < b)
    (hx : x / 2 ^ q = y * a / (4 * b)) (hle : y * a ≤ 4 * m * b)
    (hlow : if m % 2 = 0 then (4 * m - lowQuarters m q) * b ≤ y * a
      else (4 * m - lowQuarters m q) * b < y * a) : IsRounded m q x := by
  have hb' : (0 : ℚ) < 4 * b := by positivity
  have hle' : (y * a : ℚ) ≤ 4 * m * b := by exact_mod_cast hle
  have hsub : ((4 * m - lowQuarters m q : ℕ) : ℚ) = 4 * m - lowQuarters m q := by
    have := lowQuarters_le m q
    rw [Nat.cast_sub (by omega)]
    push_cast
    rfl
  refine ⟨?_, ?_, fun hodd => ⟨?_, ?_⟩⟩
  · have hlow' : (4 * m - lowQuarters m q : ℚ) * b ≤ y * a := by
      rw [← hsub]
      split at hlow
      · exact_mod_cast hlow
      · exact_mod_cast hlow.le
    rw [hx, lowQuarters_eq, le_div_iff₀ hb']
    linarith
  · rw [hx, div_le_iff₀ hb']
    linarith
  · rw [if_neg (by omega), lowQuarters_of_odd hodd] at hlow
    have hlow' : (4 * m - 2 : ℚ) * b < y * a := by
      rw [lowQuarters_of_odd hodd] at hsub
      exact_mod_cast hsub ▸ (by exact_mod_cast hlow : ((4 * m - 2 : ℕ) : ℚ) * b < y * a)
    refine ne_of_lt ?_
    rw [hx, lt_div_iff₀ hb']
    linarith
  · refine ne_of_lt ?_
    rw [hx, div_lt_iff₀ hb']
    linarith

/-- A point of a grid that is above the number but in its interval. -/
theorem isRounded_of_gt {m y a b : Nat} {q : Int} {x : ℚ} (hb : 0 < b)
    (hx : x / 2 ^ q = y * a / (4 * b)) (hgt : 4 * m * b < y * a)
    (hupp : if m % 2 = 0 then y * a ≤ (4 * m + 2) * b else y * a < (4 * m + 2) * b) :
    IsRounded m q x := by
  have hb' : (0 : ℚ) < 4 * b := by positivity
  have hgt' : (4 * m * b : ℚ) < y * a := by exact_mod_cast hgt
  have hlow : (0 : ℚ) ≤ (if m = 2 ^ 52 ∧ q ≠ -1074 then 1 / 4 else 1 / 2) := by
    split <;> norm_num
  have hmid : (m : ℚ) < x / 2 ^ q := by
    rw [hx, lt_div_iff₀ hb']
    linarith
  refine ⟨by linarith, ?_, fun hodd => ⟨?_, ?_⟩⟩
  · have hupp' : (y * a : ℚ) ≤ (4 * m + 2) * b := by
      split at hupp
      · exact_mod_cast hupp
      · exact_mod_cast hupp.le
    rw [hx, div_le_iff₀ hb']
    linarith
  · refine ne_of_lt ?_
    linarith
  · rw [if_neg (by omega)] at hupp
    have hupp' : (y * a : ℚ) < (4 * m + 2) * b := by exact_mod_cast hupp
    refine ne_of_lt ?_
    rw [hx, div_lt_iff₀ hb']
    linarith

/-- A point of a grid, measured in the last place of a number. -/
theorem value_div_eq (y : Nat) (k q : Int) : Decimal.value ⟨y, k⟩ / 2 ^ q =
    y * (commonFactors k (q - 2)).1 / (4 * (commonFactors k (q - 2)).2) := by
  have hfactors := commonFactors_eq k (q - 2)
  have hb := (commonFactors_pos k (q - 2)).2
  generalize commonFactors k (q - 2) = factors at hfactors hb ⊢
  obtain ⟨a, b⟩ := factors
  dsimp only at hfactors hb ⊢
  have hb' : (b : ℚ) ≠ 0 := by exact_mod_cast hb.ne'
  have hpos := (zpow_two_pos q).ne'
  have hq : (2 : ℚ) ^ (q - 2) = 2 ^ q / 4 := by
    rw [zpow_sub₀ (by norm_num)]
    norm_num
  rw [hq] at hfactors
  have hten : (10 : ℚ) ^ k = a / b * (2 ^ q / 4) := by
    rw [hfactors]
    field_simp
  rw [Decimal.value, hten]
  field_simp

/-- What is taken from a grid rounds to the number. -/
theorem isRounded_onGrid {tie : Tie} {m : Nat} {q k : Int} {d : Decimal} (hm : 0 < m)
    (h : onGrid tie m q k = some d) : IsRounded m q d.value := by
  obtain ⟨ha, hb⟩ := commonFactors_pos k (q - 2)
  have hvalue (y : Nat) := value_div_eq y k q
  generalize hab : commonFactors k (q - 2) = factors at ha hb hvalue
  obtain ⟨a, b⟩ := factors
  dsimp only at ha hb hvalue
  have hlow : (if (decide (m = 2 ^ 52) && decide (q ≠ -1074)) = true then 1 else 2) =
      lowQuarters m q := by
    simp [lowQuarters]
  simp only [onGrid, hab, hlow] at h
  -- The number lies between two neighbours on the grid.
  generalize hy : 4 * m * b / a = y at h
  have hle : y * a ≤ 4 * m * b := hy ▸ Nat.div_mul_le_self _ _
  have hgt : 4 * m * b < (y + 1) * a := by
    rw [← hy, Nat.mul_comm _ a]
    exact Nat.lt_mul_div_succ _ ha
  have hbelow := isRounded_of_le hm hb (hvalue y) hle
  have habove := isRounded_of_gt hb (hvalue (y + 1)) hgt
  by_cases hlower : if m % 2 = 0 then (4 * m - lowQuarters m q) * b ≤ y * a
      else (4 * m - lowQuarters m q) * b < y * a
  · by_cases hupper : if m % 2 = 0 then (y + 1) * a ≤ (4 * m + 2) * b
        else (y + 1) * a < (4 * m + 2) * b
    · simp only [hlower, hupper, decide_true, Bool.and_self, if_true] at h
      cases h
      split
      · exact habove hupper
      · exact hbelow hlower
    · simp only [hlower, hupper, decide_true, decide_false, Bool.and_false, Bool.false_eq_true,
        if_true, if_false] at h
      cases h
      exact hbelow hlower
  · simp only [hlower, decide_false, Bool.false_and, Bool.false_eq_true, if_false] at h
    by_cases hupper : if m % 2 = 0 then (y + 1) * a ≤ (4 * m + 2) * b
        else (y + 1) * a < (4 * m + 2) * b
    · rw [if_pos hupper] at h
      cases h
      exact habove hupper
    · rw [if_neg hupper] at h
      cases h

/-! ## The finest grid -/

/-- A natural number nearest to a quotient is at most a half away from it. -/
theorem divNearest_error {n d : Nat} (hd : 0 < d) :
    (n / d : ℚ) - 1 / 2 ≤ divNearest n d ∧ (divNearest n d : ℚ) ≤ n / d + 1 / 2 := by
  have hd' : (0 : ℚ) < d := by exact_mod_cast hd
  have hn : d * (n / d) + n % d = n := Nat.div_add_mod n d
  have hr : n % d < d := Nat.mod_lt n hd
  have hnat : 2 * n ≤ 2 * (divNearest n d * d) + d ∧ 2 * (divNearest n d * d) ≤ 2 * n + d := by
    rw [Nat.mul_comm] at hn
    rw [divNearest]
    split
    · omega
    · split
      · have hmul := Nat.add_one_mul (n / d) d
        omega
      · rcases Nat.mod_two_eq_zero_or_one (n / d) with h | h <;>
          rw [h, Nat.add_mul] <;> omega
  obtain ⟨hlow, hupp⟩ := hnat
  have hlow' : (2 * n : ℚ) ≤ 2 * (divNearest n d * d) + d := by exact_mod_cast hlow
  have hupp' : (2 * (divNearest n d * d) : ℚ) ≤ 2 * n + d := by exact_mod_cast hupp
  have hcancel : (n / d : ℚ) * d = n := div_mul_cancel₀ _ hd'.ne'
  constructor
  · rw [← mul_le_mul_iff_left₀ hd']
    linarith
  · rw [← mul_le_mul_iff_left₀ hd']
    linarith

/-- On a grid much finer than the interval the nearest point is taken. -/
theorem isRounded_nearestPoint {m : Nat} {q k : Int} (hk : (10 : ℚ) ^ k < 2 ^ q / 2) :
    IsRounded m q (Decimal.value
      ⟨divNearest (m * 2 ^ q.toNat * 10 ^ (-k).toNat) (2 ^ (-q).toNat * 10 ^ k.toNat), k⟩) := by
  have hpow := zpow_two_pos q
  have hten : (0 : ℚ) < 10 ^ k := zpow_pos (by norm_num) k
  have hquotient : ((m * 2 ^ q.toNat * 10 ^ (-k).toNat : ℕ) : ℚ) /
      (2 ^ (-q).toNat * 10 ^ k.toNat : ℕ) = m * 2 ^ q / 10 ^ k := by
    have htwo := zpow_eq_div 2 (by decide) q
    have hten := zpow_eq_div 10 (by decide) k
    push_cast at htwo hten
    rw [htwo, hten]
    push_cast
    field_simp
  obtain ⟨hlow, hupp⟩ := divNearest_error (n := m * 2 ^ q.toNat * 10 ^ (-k).toNat)
    (d := 2 ^ (-q).toNat * 10 ^ k.toNat) (by positivity)
  rw [hquotient] at hlow hupp
  generalize divNearest _ _ = y at hlow hupp ⊢
  -- The point is off by at most half of the spacing, which is less than a quarter.
  have hoff : (m : ℚ) - 1 / 4 < y * 10 ^ k / 2 ^ q ∧ y * 10 ^ k / 2 ^ q < (m : ℚ) + 1 / 4 := by
    have hcancel : (m * 2 ^ q / 10 ^ k : ℚ) * 10 ^ k = m * 2 ^ q := div_mul_cancel₀ _ hten.ne'
    have h₁ := mul_le_mul_of_nonneg_right hlow hten.le
    have h₂ := mul_le_mul_of_nonneg_right hupp hten.le
    rw [sub_mul, hcancel] at h₁
    rw [add_mul, hcancel] at h₂
    rw [lt_div_iff₀ hpow, div_lt_iff₀ hpow]
    constructor <;> linarith
  have hquarter : (1 / 4 : ℚ) ≤ (if m = 2 ^ 52 ∧ q ≠ -1074 then 1 / 4 else 1 / 2) := by
    split <;> norm_num
  rw [Decimal.value]
  refine ⟨by linarith, by linarith, fun _ => ⟨?_, ?_⟩⟩
  · refine ne_of_lt ?_
    linarith
  · refine ne_of_lt ?_
    linarith

/-! ## The search -/

/-- A power of ten is at most a power of two, if the logarithm says so, up to one. `p / r`
    is the decimal logarithm of two, rounded up. -/
theorem ten_zpow_le {p r : Nat} (hr : 0 < r) (hlow : 2 ^ r ≤ 10 ^ p) (hupp : 10 ^ p ≤ 2 ^ (r + 1))
    {e g : Int} (hg : r * g ≤ p * e) (he : e ≤ r) : (10 : ℚ) ^ g ≤ 2 ^ (e + 1) := by
  have hlow' : (2 : ℚ) ^ r ≤ 10 ^ p := by exact_mod_cast hlow
  have hupp' : (10 : ℚ) ^ p ≤ 2 ^ (r + 1) := by exact_mod_cast hupp
  have hten : (0 : ℚ) < 10 ^ g := zpow_pos (by norm_num) g
  have htwo : (0 : ℚ) < 2 ^ (e + 1) := zpow_pos (by norm_num) _
  rw [← pow_le_pow_iff_left₀ hten.le htwo.le hr.ne', ← zpow_natCast, ← zpow_natCast, ← zpow_mul,
    ← zpow_mul]
  -- Compared by their powers with exponent `r`. A negative `e` turns the bounds around.
  calc (10 : ℚ) ^ (g * r) ≤ 10 ^ (p * e) := zpow_le_zpow_right₀ (by norm_num) (by linarith)
    _ = ((10 : ℚ) ^ p) ^ e := by rw [zpow_mul, zpow_natCast]
    _ ≤ 2 ^ ((e + 1) * r) := by
      rcases Int.le_total 0 e with h | h
      · calc ((10 : ℚ) ^ p) ^ e ≤ ((2 : ℚ) ^ (r + 1)) ^ e :=
              zpow_le_zpow_left₀ h (by positivity) hupp'
          _ = 2 ^ (((r + 1 : ℕ) : Int) * e) := by rw [zpow_mul, zpow_natCast]
          _ ≤ 2 ^ ((e + 1) * r) := zpow_le_zpow_right₀ (by norm_num) (by push_cast; linarith)
      · obtain ⟨k, hk⟩ := Int.eq_ofNat_of_zero_le (Int.neg_nonneg.2 h)
        obtain rfl : e = -k := by omega
        have hpow : ((2 : ℚ) ^ r) ^ k ≤ (10 ^ p) ^ k := pow_le_pow_left₀ (by positivity) hlow' k
        calc ((10 : ℚ) ^ p) ^ (-(k : Int)) = ((10 ^ p) ^ k)⁻¹ := by rw [zpow_neg, zpow_natCast]
          _ ≤ (((2 : ℚ) ^ r) ^ k)⁻¹ := inv_anti₀ (by positivity) hpow
          _ = 2 ^ ((r : Int) * -k) := by rw [zpow_mul, zpow_neg, zpow_natCast, zpow_natCast]
          _ ≤ 2 ^ ((-(k : Int) + 1) * r) := zpow_le_zpow_right₀ (by norm_num) (by linarith)

theorem log10_two : 2 ^ 100000 ≤ 10 ^ 30103 ∧ 10 ^ 30103 ≤ 2 ^ (100000 + 1) := by
  decide +kernel

theorem ten_zpow_le_of_factors {m : Nat} {q k : Int}
    (h : (commonFactors k q).1 ≤ m * (commonFactors k q).2) : (10 : ℚ) ^ k ≤ m * 2 ^ q := by
  have hb : (0 : ℚ) < (commonFactors k q).2 := by exact_mod_cast (commonFactors_pos k q).2
  have h' : ((commonFactors k q).1 : ℚ) ≤ m * (commonFactors k q).2 := by exact_mod_cast h
  rw [← div_le_iff₀ hb, commonFactors_eq, div_le_iff₀ (zpow_two_pos q)] at h'
  exact h'

/-- The magnitude that the search starts from is not too large. -/
theorem ten_zpow_decimalMagnitude_le {m : Nat} {q : Int} (hm : 0 < m) (hlt : m < 2 ^ 53)
    (hq : q ≤ 971) : (10 : ℚ) ^ decimalMagnitude m q ≤ 2 * (m * 2 ^ q) := by
  have hpos : (0 : ℚ) < m * 2 ^ q := mul_pos (by exact_mod_cast hm) (zpow_two_pos q)
  rw [decimalMagnitude]
  generalize hg : (m.log2 + q) * 30103 / 100000 = guess
  simp only
  split
  · next h => linarith [ten_zpow_le_of_factors (of_decide_eq_true h)]
  · split
    · next h => linarith [ten_zpow_le_of_factors (of_decide_eq_true h)]
    · -- The estimate is too large, but not by more than its error.
      have hlog : m.log2 < 53 := (Nat.log2_lt hm.ne').2 hlt
      have hguess : (10 : ℚ) ^ guess ≤ 2 ^ ((m.log2 : Int) + q + 1) := by
        refine ten_zpow_le (by decide) log10_two.1 log10_two.2 ?_ ?_
        · push_cast
          omega
        · push_cast
          omega
      have hself : (2 : ℚ) ^ m.log2 ≤ m := by exact_mod_cast Nat.log2_self_le hm.ne'
      have hvalue : (2 : ℚ) ^ ((m.log2 : Int) + q + 1) ≤ 2 * (m * 2 ^ q) := by
        rw [zpow_add₀ (by norm_num), zpow_add₀ (by norm_num), zpow_natCast, zpow_one]
        linarith [mul_le_mul_of_nonneg_right hself (zpow_two_pos q).le]
      have hstep : (10 : ℚ) ^ (guess - 1) ≤ 10 ^ guess :=
        zpow_le_zpow_right₀ (by norm_num) (by omega)
      linarith

theorem isRounded_search {tie : Tie} {m : Nat} {q : Int} (hm : 0 < m) {fuel : Nat} {k : Int}
    (hk : (10 : ℚ) ^ (k - fuel) < 2 ^ q / 2) : IsRounded m q (search tie m q fuel k).value := by
  induction fuel generalizing k with
  | zero => exact isRounded_nearestPoint (by simpa using hk)
  | succ fuel ih =>
    rw [search]
    cases h : onGrid tie m q k with
    | none =>
      refine ih ?_
      push_cast at hk
      rwa [sub_sub, add_comm 1]
    | some d => exact isRounded_onGrid hm h

/-! ## Trailing zeros -/

theorem ten_pow_trailing_dvd (n : Nat) :
    10 ^ ((Nat.toDigits 10 n).reverse.takeWhile (· == '0')).length ∣ n := by
  induction n using Nat.strongRecOn with
  | ind n ih =>
    have hzero : ∀ d < 10, d ≠ 0 → d.digitChar ≠ '0' := by decide
    rw [Nat.toDigits_eq_if (by decide)]
    split
    · next h =>
      rcases Nat.eq_zero_or_pos n with rfl | hn
      · exact Nat.dvd_zero _
      · simp [hzero n h hn.ne']
    · next h =>
      rw [List.reverse_append, List.reverse_singleton, List.singleton_append]
      by_cases hdigit : n % 10 = 0
      · have hn : n = 10 * (n / 10) := by omega
        rw [hdigit, List.takeWhile_cons_of_pos (by decide), List.length_cons, Nat.pow_succ,
          Nat.mul_comm _ 10]
        conv_rhs => rw [hn]
        exact Nat.mul_dvd_mul_left 10 (ih (n / 10) (by omega))
      · -- The last digit is no zero.
        have hne := hzero (n % 10) (Nat.mod_lt n (by decide)) hdigit
        rw [List.takeWhile_cons_of_neg (by simpa using hne)]
        exact Nat.one_dvd n

/-- Dropping the zeros at the end of the digits does not change the number. -/
theorem value_trim (d : Decimal) : d.trim.value = d.value := by
  rw [Decimal.trim]
  split
  · next h => simp [Decimal.value, h]
  · have hdvd := ten_pow_trailing_dvd d.digits
    generalize ((Nat.toDigits 10 d.digits).reverse.takeWhile (· == '0')).length = zeros at hdvd ⊢
    have hpow : ((10 ^ zeros : ℕ) : ℚ) ≠ 0 := by positivity
    rw [Decimal.value, Decimal.value]
    simp only
    rw [Nat.cast_div hdvd hpow, zpow_add₀ (by norm_num), zpow_natCast]
    push_cast
    field_simp

/-- The shortest decimal number rounds to the number that it was found for. -/
theorem isRounded_shortest {tie : Tie} {m : Nat} {q : Int} (hm : 0 < m) (hlt : m < 2 ^ 53)
    (hq : q ≤ 971) : IsRounded m q (shortest tie m q).value := by
  rw [shortest, if_neg hm.ne', value_trim]
  refine isRounded_search hm ?_
  have hmagnitude := ten_zpow_decimalMagnitude_le hm hlt hq
  have hm' : (m : ℚ) * 2 ^ q ≤ 2 ^ 53 * 2 ^ q :=
    mul_le_mul_of_nonneg_right (by exact_mod_cast hlt.le) (zpow_two_pos q).le
  have hpow := zpow_two_pos q
  rw [zpow_sub₀ (by norm_num), div_lt_iff₀ (by positivity)]
  norm_num
  linarith

end ManifestBundle.Binary64
