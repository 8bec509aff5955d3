import ManifestBundle.Binary64.Notation
import ManifestBundle.Binary64.Numeral
import ManifestBundle.Proofs.Binary64.Shortest
import ManifestBundle.Proofs.Text.Digits

/-!
# A spelled number reads back

In every style the text of a finite number is a numeral that stands for that number
(`ofNumeral?_write`). A numeral is digits with a point among them and a power of ten
(`decimal?_point`, `decimal?_digits`); whatever the style, they stand for the shortest
decimal that was chosen, and this rounds to the number (`ofDecimal_eq_finite`).
-/

namespace ManifestBundle.Binary64

/-! ## Decimals that round to the number -/

theorem lt_ten_pow_length (n : Nat) : n < 10 ^ (Nat.toDigits 10 n).length :=
  (Nat.length_toDigits_le_iff (by decide) Nat.length_toDigits_pos).1 (Nat.le_refl _)

theorem ten_pow_length_le {n : Nat} (hn : 0 < n) :
    10 ^ ((Nat.toDigits 10 n).length - 1) ≤ n := by
  rcases Nat.eq_zero_or_pos ((Nat.toDigits 10 n).length - 1) with h | h
  · rw [h]
    exact hn
  · have hpos := Nat.length_toDigits_pos (b := 10) (n := n)
    exact Nat.le_of_not_lt fun hlt => by
      have := (Nat.length_toDigits_le_iff (by decide) h).2 hlt
      omega

theorem range_bounds : (10 : ℚ) ^ (-331 : Int) < 2 ^ (-1075 : Int) ∧
    (2 : ℚ) ^ (1024 : Int) < 10 ^ (310 : Int) := by
  have hleast : (2 : ℚ) ^ 1075 < 10 ^ 331 := by
    exact_mod_cast (by decide +kernel : 2 ^ 1075 < 10 ^ 331)
  have hgreatest : (2 : ℚ) ^ 1024 < 10 ^ 310 := by
    exact_mod_cast (by decide +kernel : 2 ^ 1024 < 10 ^ 310)
  refine ⟨?_, by rwa [zpow_ofNat, zpow_ofNat]⟩
  rw [zpow_neg, zpow_neg, zpow_ofNat, zpow_ofNat]
  exact inv_strictAnti₀ (by positivity) hleast

/-- A decimal number that rounds to a number is in the range of the format. -/
theorem IsRounded.bounds {m : Nat} {q : Int} {x : ℚ} (h : IsRounded m q x) (hm : 0 < m)
    (hcanonical : IsCanonical m q) : (10 : ℚ) ^ (-331 : Int) < x ∧ x < 10 ^ (310 : Int) := by
  have hpow := zpow_two_pos q
  have hm' : (1 : ℚ) ≤ m := by exact_mod_cast hm
  have hlt : (m : ℚ) + 1 ≤ 2 ^ 53 := by exact_mod_cast hcanonical.lt
  have hquarter : (if m = 2 ^ 52 ∧ q ≠ -1074 then 1 / 4 else 1 / 2 : ℚ) ≤ 1 / 2 := by
    split <;> norm_num
  have hlower := h.lower
  have hupper := h.upper
  constructor
  · -- At least half of the least number.
    have hx : 1 / 2 * 2 ^ q ≤ x := by
      rw [← le_div_iff₀ hpow]
      linarith
    have hq : (2 : ℚ) ^ (-1074 : Int) ≤ 2 ^ q :=
      zpow_le_zpow_right₀ (by norm_num) hcanonical.exponent_ge
    have hhalf : (2 : ℚ) ^ (-1075 : Int) = 1 / 2 * 2 ^ (-1074 : Int) := by
      rw [(by norm_num : (-1075 : Int) = -1 + -1074), zpow_add₀ (by norm_num)]
      norm_num
    linarith [range_bounds.1]
  · -- At most the power of two behind the greatest number.
    have hx : x ≤ 2 ^ 53 * 2 ^ q := by
      rw [← div_le_iff₀ hpow]
      linarith
    have hq : (2 : ℚ) ^ q ≤ 2 ^ (971 : Int) :=
      zpow_le_zpow_right₀ (by norm_num) hcanonical.exponent_le
    have hsplit : (2 : ℚ) ^ (1024 : Int) = 2 ^ 53 * 2 ^ (971 : Int) := by
      rw [(by norm_num : (1024 : Int) = 53 + 971), zpow_add₀ (by norm_num)]
      rfl
    calc x ≤ 2 ^ 53 * 2 ^ q := hx
      _ ≤ 2 ^ 53 * 2 ^ (971 : Int) := mul_le_mul_of_nonneg_left hq (by positivity)
      _ = 2 ^ (1024 : Int) := hsplit.symm
      _ < 10 ^ (310 : Int) := range_bounds.2

/-- A decimal number that rounds to a number is read as that number. -/
theorem IsRounded.ofDecimal {m digits : Nat} {q exponent : Int}
    (h : IsRounded m q (digits * 10 ^ exponent)) (hm : 0 < m) (hcanonical : IsCanonical m q)
    (negative : Bool) : ofDecimal negative digits exponent = .finite negative m q hcanonical := by
  obtain ⟨hlow, hupp⟩ := h.bounds hm hcanonical
  have hpow : (0 : ℚ) < 10 ^ exponent := zpow_pos (by norm_num) _
  have hdigits : 0 < digits := by
    refine Nat.pos_of_ne_zero ?_
    rintro rfl
    rw [Nat.cast_zero, zero_mul] at hlow
    exact absurd (hlow.trans (zpow_pos (by norm_num) _)) (lt_irrefl _)
  rw [Binary64.ofDecimal]
  generalize hsize : (Nat.toDigits 10 digits).length = size
  have hpos : 0 < size := hsize ▸ Nat.length_toDigits_pos
  have hlt : (digits : ℚ) < 10 ^ size := by exact_mod_cast hsize ▸ lt_ten_pow_length digits
  have hle : (10 : ℚ) ^ (size - 1) ≤ digits := by exact_mod_cast hsize ▸ ten_pow_length_le hdigits
  -- The first digit of the number has a place in the range.
  have hsmall : ¬exponent + size < -330 := by
    intro hsmall
    have h₁ : (digits : ℚ) * 10 ^ exponent < 10 ^ (size : Int) * 10 ^ exponent :=
      mul_lt_mul_of_pos_right (by rwa [zpow_natCast]) hpow
    rw [← zpow_add₀ (by norm_num)] at h₁
    have h₂ : (10 : ℚ) ^ ((size : Int) + exponent) ≤ 10 ^ (-331 : Int) :=
      zpow_le_zpow_right₀ (by norm_num) (by omega)
    linarith
  have hlarge : ¬exponent + size > 310 := by
    intro hlarge
    have h₁ : (10 : ℚ) ^ ((size - 1 : ℕ) : Int) * 10 ^ exponent ≤ digits * 10 ^ exponent :=
      mul_le_mul_of_nonneg_right (by rwa [zpow_natCast]) hpow.le
    rw [← zpow_add₀ (by norm_num)] at h₁
    have h₂ : (10 : ℚ) ^ (310 : Int) ≤ 10 ^ (((size - 1 : ℕ) : Int) + exponent) :=
      zpow_le_zpow_right₀ (by norm_num) (by omega)
    linarith
  have hquotient : ((digits * 10 ^ exponent.toNat : ℕ) : ℚ) / (10 ^ (-exponent).toNat : ℕ) =
      digits * 10 ^ exponent := by
    have hten := zpow_eq_div 10 (by decide) exponent
    push_cast at hten ⊢
    rw [hten, mul_div_assoc]
  simp only [hdigits.ne', hsmall, hlarge, decide_false, Bool.or_self, Bool.false_eq_true, if_false]
  exact nearest_eq_finite (by positivity) (by positivity) hcanonical (hquotient ▸ h) negative

/-- However the shortest decimal number is split into digits and an exponent, it is read
    as the number that it was found for. -/
theorem ofDecimal_eq_finite {tie : Tie} {m digits : Nat} {q exponent : Int}
    (hcanonical : IsCanonical m q)
    (h : (digits : ℚ) * 10 ^ exponent = (shortest tie m q).value) (negative : Bool) :
    ofDecimal negative digits exponent = .finite negative m q hcanonical := by
  rcases Nat.eq_zero_or_pos m with rfl | hm
  · -- The shortest number for zero has no other digit.
    have hzero : digits = 0 := by
      simpa [shortest, Decimal.value, (zpow_pos (by norm_num : (0 : ℚ) < 10) exponent).ne'] using h
    have hq : q = -1074 := hcanonical.normal.resolve_left (by decide)
    subst hq
    simp [ofDecimal, hzero, zero]
  · have hround : IsRounded m q (shortest tie m q).value :=
      isRounded_shortest hm hcanonical.lt hcanonical.exponent_le
    exact IsRounded.ofDecimal (h ▸ hround) hm hcanonical negative

/-! ## Numerals -/

/-- The numeral has the digits and the exponent of a number. -/
def Denotes (cs : List Char) (x : ℚ) : Prop :=
  ∃ (digits : Nat) (exponent : Int), (digits : ℚ) * 10 ^ exponent = x ∧
    ∀ negative, decimal? negative cs = some (ofDecimal negative digits exponent)

/-- Digits with a point among them, and an exponent. -/
theorem denotes_point {whole fraction rest : List Char} (hne : whole ≠ [])
    (hwhole : whole.all Text.isDigit) (hfraction : fraction.all Text.isDigit)
    (hrest : ∀ c, rest.head? = some c → Text.isDigit c = false) {e : Int}
    (he : exponent? rest = some e) :
    Denotes (whole ++ '.' :: (fraction ++ rest))
      (Nat.ofDigitChars 10 (whole ++ fraction) 0 * 10 ^ (e - fraction.length)) := by
  refine ⟨_, _, rfl, fun negative => ?_⟩
  have hpoint : ∀ c, ('.' :: (fraction ++ rest)).head? = some c → Text.isDigit c = false := by
    rintro _ ⟨⟩
    decide
  rw [decimal?, spanDigits, Text.takeWhile_run hwhole hpoint, Text.dropWhile_run hwhole hpoint]
  simp [spanDigits, Text.takeWhile_run hfraction hrest, Text.dropWhile_run hfraction hrest, hne, he]

/-- Digits without a point, and an exponent. -/
theorem denotes_digits {whole rest : List Char} (hne : whole ≠ [])
    (hwhole : whole.all Text.isDigit)
    (hrest : ∀ c, rest.head? = some c → Text.isDigit c = false ∧ c ≠ '.') {e : Int}
    (he : exponent? rest = some e) :
    Denotes (whole ++ rest) (Nat.ofDigitChars 10 whole 0 * 10 ^ e) := by
  refine ⟨_, _, rfl, fun negative => ?_⟩
  have hdigit : ∀ c, rest.head? = some c → Text.isDigit c = false := fun c hc => (hrest c hc).1
  rw [decimal?, spanDigits, Text.takeWhile_run hwhole hdigit, Text.dropWhile_run hwhole hdigit]
  cases rest with
  | nil => simp [hne, he]
  | cons c rest =>
    have hc := (hrest c rfl).2
    simp only
    split
    · next h => exact absurd (List.cons.inj h).1 hc
    · simp [hne, he]

theorem spanSign_of_digit {c : Char} (hc : Text.isDigit c) (cs : List Char) :
    spanSign (c :: cs) = (false, c :: cs) := by
  have hplus : c ≠ '+' := by
    rintro rfl
    exact absurd hc (by decide)
  have hminus : c ≠ '-' := by
    rintro rfl
    exact absurd hc (by decide)
  simp [spanSign, hplus, hminus]

theorem exists_digit (n : Nat) : ∃ c cs, Nat.toDigits 10 n = c :: cs ∧ Text.isDigit c ∧
    cs.all Text.isDigit := by
  obtain ⟨c, cs, h⟩ := List.exists_cons_of_ne_nil (Nat.toDigits_ne_nil (b := 10) (n := n))
  have hall := Text.all_isDigit_toDigits n
  rw [h, List.all_cons, Bool.and_eq_true] at hall
  exact ⟨c, cs, h, hall⟩

theorem exponent?_eq {cs ds : List Char} {negative : Bool} (hsign : spanSign cs = (negative, ds))
    (hne : ds ≠ []) (hall : ds.all Text.isDigit) :
    exponent? ('e' :: cs) =
      some (if negative then -(Nat.ofDigitChars 10 ds 0 : Int) else Nat.ofDigitChars 10 ds 0) := by
  simp [exponent?, hsign, hne, hall]

/-- The power of ten at the end of a numeral. -/
theorem exponent?_power (style : Style) (e : Int) :
    exponent? ('e' :: ((if e < 0 then ['-'] else if style.plusSign then ['+'] else []) ++
      Nat.toDigits 10 e.natAbs)) = some e := by
  have hall := Text.all_isDigit_toDigits e.natAbs
  have hne : Nat.toDigits 10 e.natAbs ≠ [] := Nat.toDigits_ne_nil
  rcases lt_or_ge e 0 with he | he
  · have hsign : spanSign (['-'] ++ Nat.toDigits 10 e.natAbs) = (true, Nat.toDigits 10 e.natAbs) :=
      rfl
    rw [if_pos he, exponent?_eq hsign hne hall, Nat.ofDigitChars_ten_toDigits]
    congr 1
    simp only [if_true]
    omega
  · have hsign : spanSign ((if style.plusSign then ['+'] else []) ++ Nat.toDigits 10 e.natAbs) =
        (false, Nat.toDigits 10 e.natAbs) := by
      obtain ⟨c, cs, hdigits, hc, -⟩ := exists_digit e.natAbs
      split
      · rfl
      · rw [hdigits]
        exact spanSign_of_digit hc cs
    rw [if_neg (by omega), exponent?_eq hsign hne hall, Nat.ofDigitChars_ten_toDigits]
    congr 1
    simp only [Bool.false_eq_true, if_false]
    omega

/-! ## Layouts -/

variable (style : Style) (d : Decimal)

theorem value_eq_magnitude : d.value =
    d.digits * 10 ^ (d.magnitude + 1 - (Nat.toDigits 10 d.digits).length) := by
  have : d.magnitude + 1 - (Nat.toDigits 10 d.digits).length = d.exponent := by
    rw [Decimal.magnitude]
    omega
  rw [this, Decimal.value]

theorem all_isDigit_replicate (n : Nat) : (List.replicate n '0').all Text.isDigit := by
  rw [List.all_replicate]
  split
  · rfl
  · decide

/-- Zeros stand between the point and the digits. -/
theorem denotes_below_one (h : d.magnitude < 0) :
    Denotes (style.point (Nat.toDigits 10 d.digits) d.magnitude) d.value := by
  have hall := Text.all_isDigit_toDigits d.digits
  have hfraction : (List.replicate (-d.magnitude - 1).toNat '0' ++ Nat.toDigits 10 d.digits).all
      Text.isDigit := by
    rw [List.all_append, hall, all_isDigit_replicate, Bool.and_self]
  have hread := denotes_point (List.cons_ne_nil '0' []) (by decide) hfraction
    (by rintro _ ⟨⟩) (rfl : exponent? [] = some 0)
  rw [Style.point, if_pos h, value_eq_magnitude]
  convert hread using 1
  · simp
  · have hzero : Nat.ofDigitChars 10 (['0'] ++ (List.replicate (-d.magnitude - 1).toNat '0' ++
        Nat.toDigits 10 d.digits)) 0 = d.digits := by
      rw [Nat.ofDigitChars_append, Nat.ofDigitChars_append]
      simp [Nat.ofDigitChars_cons]
    rw [hzero, List.length_append, List.length_replicate]
    congr 2
    push_cast
    omega

/-- Zeros stand between the digits and the point, if there is one. -/
theorem denotes_integer (h : 0 ≤ d.magnitude)
    (hlen : (Nat.toDigits 10 d.digits).length ≤ d.magnitude.toNat + 1) :
    Denotes (style.point (Nat.toDigits 10 d.digits) d.magnitude) d.value := by
  have hwhole : (Nat.toDigits 10 d.digits ++ List.replicate
      (d.magnitude.toNat + 1 - (Nat.toDigits 10 d.digits).length) '0').all Text.isDigit := by
    rw [List.all_append, Text.all_isDigit_toDigits, all_isDigit_replicate, Bool.and_self]
  have hne : Nat.toDigits 10 d.digits ++ List.replicate
      (d.magnitude.toNat + 1 - (Nat.toDigits 10 d.digits).length) '0' ≠ [] := by
    simp
  have hdigits : Nat.ofDigitChars 10 (Nat.toDigits 10 d.digits ++ List.replicate
      (d.magnitude.toNat + 1 - (Nat.toDigits 10 d.digits).length) '0') 0 =
      10 ^ (d.magnitude.toNat + 1 - (Nat.toDigits 10 d.digits).length) * d.digits := by
    rw [Nat.ofDigitChars_append, Nat.ofDigitChars_ten_toDigits, Nat.ofDigitChars_replicate_zero]
  have hvalue : d.value =
      (10 ^ (d.magnitude.toNat + 1 - (Nat.toDigits 10 d.digits).length) * d.digits : ℕ) := by
    have hexponent : d.magnitude + 1 - (Nat.toDigits 10 d.digits).length =
        ((d.magnitude.toNat + 1 - (Nat.toDigits 10 d.digits).length : ℕ) : Int) := by
      omega
    rw [value_eq_magnitude, hexponent, zpow_natCast]
    push_cast
    exact mul_comm _ _
  rw [Style.point, if_neg (by omega), if_pos hlen, hvalue]
  split
  · -- The style puts a point and a zero behind the digits.
    have hread := denotes_point hne hwhole (by decide : ['0'].all Text.isDigit) (by rintro _ ⟨⟩)
      (rfl : exponent? [] = some 0)
    convert hread using 1
    · simp
    · have hlast (n : Nat) : Nat.ofDigitChars 10 ['0'] n = 10 * n := by
        simp [Nat.ofDigitChars_cons]
      rw [Nat.ofDigitChars_append, hdigits, hlast, Nat.cast_mul 10, mul_right_comm]
      norm_num
  · have hread := denotes_digits hne hwhole (by rintro _ ⟨⟩) (rfl : exponent? [] = some 0)
    convert hread using 1
    rw [hdigits, zpow_zero, mul_one]

/-- The point stands among the digits. -/
theorem denotes_among (h : 0 ≤ d.magnitude)
    (hlen : d.magnitude.toNat + 1 < (Nat.toDigits 10 d.digits).length) :
    Denotes (style.point (Nat.toDigits 10 d.digits) d.magnitude) d.value := by
  have hall := List.all_eq_true.1 (Text.all_isDigit_toDigits d.digits)
  have hne : (Nat.toDigits 10 d.digits).take (d.magnitude.toNat + 1) ≠ [] := by
    simp
  have hread := denotes_point hne
    (List.all_eq_true.2 fun c hc => hall c (List.mem_of_mem_take hc))
    (List.all_eq_true.2 fun c hc => hall c (List.mem_of_mem_drop (i := d.magnitude.toNat + 1) hc))
    (by rintro _ ⟨⟩) (rfl : exponent? [] = some 0)
  rw [Style.point, if_neg (by omega), if_neg (by omega), value_eq_magnitude]
  convert hread using 1
  · simp
  · rw [List.take_append_drop, Nat.ofDigitChars_ten_toDigits, List.length_drop]
    congr 2
    omega

/-- A power of ten stands behind the digits. -/
theorem denotes_power :
    Denotes (style.power (Nat.toDigits 10 d.digits) d.magnitude) d.value := by
  have hpower := exponent?_power style d.magnitude
  have hdigits : Nat.ofDigitChars 10 (Nat.toDigits 10 d.digits) 0 = d.digits :=
    Nat.ofDigitChars_ten_toDigits
  obtain ⟨c, cs, hcs, hc, hall⟩ := exists_digit d.digits
  rw [value_eq_magnitude]
  rw [hcs] at hdigits ⊢
  -- A single digit takes no point.
  cases cs with
  | nil =>
    have hread := denotes_digits (List.cons_ne_nil c []) (by simp [hc])
      (by rintro _ ⟨⟩; decide) hpower
    convert hread using 1
    · simp [Style.power]
    · rw [hdigits, List.length_singleton]
      congr 2
      omega
  | cons d' cs =>
    have hread := denotes_point (List.cons_ne_nil c []) (by simp [hc]) hall
      (by rintro _ ⟨⟩; decide) hpower
    convert hread using 1
    · simp [Style.power]
    · rw [List.singleton_append, hdigits]
      congr 2
      push_cast [List.length_cons]
      omega

/-! ## Reading back -/

theorem toLower_of_isDigit {c : Char} (hc : Text.isDigit c) : c.toLower = c := by
  simp only [Text.isDigit, Bool.and_eq_true, decide_eq_true_eq, Char.le_def] at hc
  refine dif_neg ?_
  rintro ⟨h, -⟩
  exact absurd (UInt32.le_trans h hc.2) (by decide)

/-- Digits behind an optional minus sign. -/
theorem ofNumeral?_of_digit {c : Char} {cs : List Char} (hc : Text.isDigit c) (negative : Bool) :
    ofNumeral? ((if negative then ['-'] else []) ++ c :: cs) = decimal? negative (c :: cs) := by
  have hlower : c.toLower ≠ 'i' ∧ c.toLower ≠ 'n' := by
    rw [toLower_of_isDigit hc]
    constructor <;>
    · rintro rfl
      exact absurd hc (by decide)
  have hsign : spanSign ((if negative then ['-'] else []) ++ c :: cs) = (negative, c :: cs) := by
    cases negative
    · exact spanSign_of_digit hc cs
    · rfl
  rw [ofNumeral?, hsign]
  simp only [List.map_cons]
  -- It is none of the words for infinity and NaN.
  split
  · next h => exact absurd (List.cons.inj h).1 hlower.1
  · next h => exact absurd (List.cons.inj h).1 hlower.1
  · next h => exact absurd (List.cons.inj h).1 hlower.2
  · rfl

/-- The digits and the exponent of a number, laid out in a style. -/
def Style.layout (style : Style) (d : Decimal) : List Char :=
  if style.positional d.magnitude then style.point (Nat.toDigits 10 d.digits) d.magnitude
  else style.power (Nat.toDigits 10 d.digits) d.magnitude

theorem denotes_layout : Denotes (style.layout d) d.value := by
  rw [Style.layout]
  split
  · rcases lt_or_ge d.magnitude 0 with h | h
    · exact denotes_below_one style d h
    · rcases Nat.lt_or_ge (d.magnitude.toNat + 1) (Nat.toDigits 10 d.digits).length with hlen | hlen
      · exact denotes_among style d h hlen
      · exact denotes_integer style d h hlen
  · exact denotes_power style d

/-- A layout starts with a digit. -/
theorem exists_layout : ∃ c cs, style.layout d = c :: cs ∧ Text.isDigit c := by
  obtain ⟨c, cs, hcs, hc, -⟩ := exists_digit d.digits
  rw [Style.layout, hcs]
  split
  · rw [Style.point]
    split
    · exact ⟨'0', _, rfl, by decide⟩
    · dsimp only
      split
      · exact ⟨c, _, rfl, hc⟩
      · exact ⟨c, _, rfl, hc⟩
  · cases cs with
    | nil => exact ⟨c, _, rfl, hc⟩
    | cons => exact ⟨c, _, rfl, hc⟩

/-! ## Characters of a layout -/

theorem mem_point {c : Char} {ds : List Char} {e : Int} (hds : ds.all Text.isDigit)
    (hc : c ∈ style.point ds e) : Text.isDigit c ∨ c = '.' := by
  have hdigits := List.all_eq_true.1 hds
  have hzeros (n : Nat) := List.all_eq_true.1 (all_isDigit_replicate n)
  rw [Style.point] at hc
  split at hc
  · simp only [List.mem_append, List.mem_cons, List.not_mem_nil, or_false] at hc
    rcases hc with ((rfl | rfl) | hc) | hc
    · exact .inl (by decide)
    · exact .inr rfl
    · exact .inl (hzeros _ c hc)
    · exact .inl (hdigits c hc)
  · dsimp only at hc
    split at hc
    · simp only [List.mem_append] at hc
      rcases hc with (hc | hc) | hc
      · exact .inl (hdigits c hc)
      · exact .inl (hzeros _ c hc)
      · split at hc
        · rcases List.mem_pair.1 hc with rfl | rfl
          · exact .inr rfl
          · exact .inl (by decide)
        · cases hc
    · simp only [List.mem_append, List.mem_cons] at hc
      rcases hc with hc | rfl | hc
      · exact .inl (hdigits c (List.mem_of_mem_take hc))
      · exact .inr rfl
      · exact .inl (hdigits c (List.mem_of_mem_drop hc))

theorem mem_power {c : Char} {ds : List Char} {e : Int} (hds : ds.all Text.isDigit)
    (hc : c ∈ style.power ds e) : Text.isDigit c ∨ c ∈ ['.', 'e', '+', '-'] := by
  have hdigits := List.all_eq_true.1 hds
  have hexponent := List.all_eq_true.1 (Text.all_isDigit_toDigits e.natAbs)
  simp only [Style.power, List.mem_append, List.mem_cons] at hc
  rcases hc with (hc | rfl | hc) | hc
  · -- The point stands behind the first of several digits.
    cases ds with
    | nil => cases hc
    | cons a ds =>
      cases ds with
      | nil => exact .inl (hdigits c hc)
      | cons b ds =>
        rcases List.mem_cons.1 hc with rfl | hc
        · exact .inl (hdigits _ List.mem_cons_self)
        · rcases List.mem_cons.1 hc with rfl | hc
          · exact .inr (by decide)
          · exact .inl (hdigits c (List.mem_cons_of_mem a hc))
  · exact .inr (by decide)
  · split at hc
    · obtain rfl := List.mem_singleton.1 hc
      exact .inr (by decide)
    · split at hc
      · obtain rfl := List.mem_singleton.1 hc
        exact .inr (by decide)
      · cases hc
  · exact .inl (hexponent c hc)

/-- What is laid out are digits, points, signs and letters of an exponent. -/
theorem mem_layout {c : Char} (hc : c ∈ style.layout d) :
    Text.isDigit c ∨ c ∈ ['.', 'e', '+', '-'] := by
  have hdigits := Text.all_isDigit_toDigits d.digits
  rw [Style.layout] at hc
  split at hc
  · refine (mem_point style hdigits hc).imp_right ?_
    rintro rfl
    decide
  · exact mem_power style hdigits hc

/-- If points are kept, there is one, or the letter of an exponent. -/
theorem exists_mark (h : style.keepsPoint) : ∃ c ∈ style.layout d, c = '.' ∨ c = 'e' := by
  rw [Style.layout]
  split
  · refine ⟨'.', ?_, .inl rfl⟩
    rw [Style.point, h]
    split
    · simp
    · dsimp only
      split <;> simp
  · exact ⟨'e', by simp [Style.power], .inr rfl⟩

/-! ## The text of a number -/

theorem write_finite (negative : Bool) {m : Nat} {q : Int} (h : IsCanonical m q) :
    style.write (.finite negative m q h) =
      (if negative then ['-'] else []) ++ style.layout (shortest style.tie m q) :=
  rfl

/-- The text of a finite number is a numeral that stands for it, in every style. -/
theorem ofNumeral?_write (negative : Bool) {m : Nat} {q : Int} (h : IsCanonical m q) :
    ofNumeral? (style.write (.finite negative m q h)) = some (.finite negative m q h) := by
  obtain ⟨digits, exponent, hvalue, hread⟩ := denotes_layout style (shortest style.tie m q)
  obtain ⟨c, cs, hcs, hc⟩ := exists_layout style (shortest style.tie m q)
  rw [write_finite, hcs, ofNumeral?_of_digit hc, ← hcs, hread, ofDecimal_eq_finite h hvalue]

end ManifestBundle.Binary64
