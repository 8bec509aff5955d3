import ManifestBundle.Proofs.Binary64.Notation
import ManifestBundle.Yaml.Number
import ManifestBundle.Yaml.Printer
import ManifestBundle.Yaml.Scalar

/-!
# Reading back a number

The text of a number has the form of a plain scalar (`fitsPlain_printNumber`) and is
told apart by its characters: that of an integer is digits without a zero in front, and
that of a floating point number holds a point or the letter of an exponent, or is the
name of a number that is not finite. So both are read back as numbers of their kind
(`plainNode?_printNumber`).
-/

namespace ManifestBundle

/-- The node of a number. -/
def Number.node : Number → Yaml.Node
  | .integer i => .integer i.toInt
  | .float x => .float x

namespace Yaml

/-! ## Characters of a number -/

/-- A character in the text of a finite number. -/
def isNumeralChar (c : Char) : Bool :=
  Text.isDigit c || c = '.' || c = 'e' || c = '+' || c = '-'

theorem isNumeralChar_of_isDigit {c : Char} (h : Text.isDigit c) : isNumeralChar c := by
  simp [isNumeralChar, h]

theorem isPrintable_of_isNumeralChar {c : Char} (h : isNumeralChar c) :
    (isPrintable c && !isBreak c) ∧ c ≠ ' ' ∧ c ≠ ':' := by
  simp only [isNumeralChar, Bool.or_eq_true, decide_eq_true_eq] at h
  rcases h with (((h | rfl) | rfl) | rfl) | rfl
  · obtain ⟨d, hd, rfl⟩ := Text.exists_digit_of_isDigit h
    clear h
    revert d
    decide
  all_goals decide

theorem hasIndicator_eq_false {cs : List Char} (h : ∀ c ∈ cs, c ≠ ' ' ∧ c ≠ ':') :
    hasIndicator cs = false := by
  induction cs with
  | nil => rfl
  | cons c cs ih =>
    have hc := h c List.mem_cons_self
    simp [hasIndicator, hc, ih fun d hd => h d (List.mem_cons_of_mem c hd)]

theorem fitsPlain_of_numeralChars {cs : List Char} (h : cs.all isNumeralChar)
    (hmark : startsAsMark cs = false) (hstart : startsAsIndicator cs = false) : fitsPlain cs := by
  have hall : ∀ c ∈ cs, (isPrintable c && !isBreak c) ∧ c ≠ ' ' ∧ c ≠ ':' := fun c hc =>
    isPrintable_of_isNumeralChar (List.all_eq_true.1 h c hc)
  have hprint : cs.all fun c => isPrintable c && !isBreak c :=
    List.all_eq_true.2 fun c hc => (hall c hc).1
  have hhead : cs.head? ≠ some ' ' := fun hc => (hall ' ' (List.mem_of_mem_head? hc)).2.1 rfl
  have hlast : cs.getLast? ≠ some ' ' := fun hc => (hall ' ' (List.mem_of_getLast? hc)).2.1 rfl
  have hindicator := hasIndicator_eq_false fun c hc => (hall c hc).2
  rw [fitsPlain, hprint, hindicator, hmark, hstart]
  simp [hhead, hlast]

/-- The text of a finite number has the form of a plain scalar. -/
theorem fitsPlain_numeral {c : Char} {cs : List Char} (hc : Text.isDigit c)
    (hcs : cs.all isNumeralChar) (negative : Bool) :
    fitsPlain ((if negative then ['-'] else []) ++ c :: cs) := by
  have hall : (c :: cs).all isNumeralChar := by
    rw [List.all_cons, hcs, isNumeralChar_of_isDigit hc, Bool.and_self]
  obtain ⟨hdot, hhyphen, hstart, hwhite⟩ : c ≠ '.' ∧ c ≠ '-' ∧
      (isFlowIndicator c ||
        ['#', '&', '*', '!', '|', '>', '\'', '"', '%', '@', '\x60'].contains c ||
        ['?', ':', '-'].contains c) = false ∧ isWhite c = false := by
    obtain ⟨d, hd, rfl⟩ := Text.exists_digit_of_isDigit hc
    clear hc hall
    revert d
    decide
  cases negative
  · refine fitsPlain_of_numeralChars hall ?_ ?_
    · simp [startsAsMark, hdot, hhyphen]
    · rw [Bool.or_eq_false_iff] at hstart
      simp only [if_false, Bool.false_eq_true, List.nil_append]
      rw [startsAsIndicator, hstart.1, hstart.2]
      rfl
  · refine fitsPlain_of_numeralChars (by simpa [isNumeralChar] using hall) ?_ ?_
    · simp [startsAsMark, hhyphen]
    · simp [startsAsIndicator, isFlowIndicator, atWhite, hwhite]

/-! ## Integers -/

theorem hexValue?_digitChar {d : Nat} (h : d < 10) : Text.hexValue? d.digitChar = some d := by
  revert d
  decide

theorem foldlM_toDigits (n : Nat) : (Nat.toDigits 10 n).foldlM (fun n c =>
    match Text.hexValue? c with
    | some d => if d < 10 then some (10 * n + d) else none
    | none => none) 0 = some n := by
  induction n using Nat.strongRecOn with
  | ind n ih =>
    rw [Nat.toDigits_eq_if (by decide)]
    split
    · next h => simp [hexValue?_digitChar h, h]
    · next h =>
      have hd : n % 10 < 10 := Nat.mod_lt n (by decide)
      rw [List.foldlM_append, ih (n / 10) (by omega)]
      simp only [Option.bind_eq_bind, Option.bind_some, List.foldlM_cons, List.foldlM_nil,
        hexValue?_digitChar hd, hd, if_true, Option.pure_def]
      rw [Nat.div_add_mod]

theorem naturalOf?_toDigits (n : Nat) : naturalOf? 10 (Nat.toDigits 10 n) = some n := by
  have hne : (Nat.toDigits 10 n).isEmpty = false := by simp
  rw [naturalOf?, hne]
  exact foldlM_toDigits n

/-- No sign stands in front of a digit. -/
theorem withoutSign_of_digit {c : Char} (hc : Text.isDigit c) (cs : List Char) :
    withoutSign (c :: cs) = c :: cs ∧ withoutPlus (c :: cs) = c :: cs := by
  have hplus : c ≠ '+' := by
    rintro rfl
    exact absurd hc (by decide)
  have hminus : c ≠ '-' := by
    rintro rfl
    exact absurd hc (by decide)
  constructor
  · simp [withoutSign, hplus, hminus]
  · simp [withoutPlus, hplus]

/-- The digits of a number have no zero in front of them. -/
theorem not_isZeroPadded {cs : List Char} {n : Nat} (h : withoutSign cs = Nat.toDigits 10 n) :
    isZeroPadded cs = false := by
  rw [isZeroPadded, h]
  split
  · next c ds heq =>
    rcases Nat.eq_zero_or_pos n with rfl | hn
    · cases heq
    · exact absurd (by rw [heq]; rfl) (Text.head?_toDigits_ne_zero hn)
  · rfl

/-- The letter of a base is no character of a decimal number. -/
theorem basedOf?_eq_none {c : Char} {cs : List Char} (h : cs.all isNumeralChar) :
    basedOf? (c :: cs) = none := by
  unfold basedOf?
  split
  · next heq =>
    obtain ⟨-, rfl⟩ := List.cons.inj heq
    exact absurd h (by simp [isNumeralChar, Text.isDigit])
  · next heq =>
    obtain ⟨-, rfl⟩ := List.cons.inj heq
    exact absurd h (by simp [isNumeralChar, Text.isDigit])
  · next heq =>
    obtain ⟨-, rfl⟩ := List.cons.inj heq
    exact absurd h (by simp [isNumeralChar, Text.isDigit])
  · rfl

/-- An integer is read back. -/
theorem integerOf?_integer (i : Int) : integerOf? (Text.integer i) = some i := by
  obtain ⟨c, cs, hcs, hc, hdigits⟩ := Binary64.exists_digit i.natAbs
  have hbased : basedOf? (Nat.toDigits 10 i.natAbs) = none := by
    rw [hcs]
    exact basedOf?_eq_none (List.all_eq_true.2 fun d hd =>
      isNumeralChar_of_isDigit (List.all_eq_true.1 hdigits d hd))
  rw [Text.integer]
  split
  · next hi =>
    have hpadded : isZeroPadded ('-' :: Nat.toDigits 10 i.natAbs) = false := not_isZeroPadded rfl
    rw [integerOf?, hbased, hpadded, naturalOf?_toDigits]
    change some (-(i.natAbs : Int)) = some i
    congr 1
    omega
  · next hi =>
    have hpadded : isZeroPadded (Nat.toDigits 10 i.natAbs) = false := by
      apply not_isZeroPadded (n := i.natAbs)
      rw [hcs, (withoutSign_of_digit hc cs).1]
    have hplus : withoutPlus (Nat.toDigits 10 i.natAbs) = Nat.toDigits 10 i.natAbs := by
      rw [hcs, (withoutSign_of_digit hc cs).2]
    rw [integerOf?, hplus, hbased, hpadded, naturalOf?_toDigits]
    · change some (i.natAbs : Int) = some i
      congr 1
      omega
    · intro ds heq
      rw [hcs] at heq
      obtain rfl := (List.cons.inj heq).1
      exact absurd hc (by decide)

/-- A text that starts as a number spells neither null nor a truth value. -/
theorem not_word_of_head {c : Char} (hc : Text.isDigit c ∨ c = '-') (cs : List Char) :
    isNullText (c :: cs) = false ∧ boolOf? (c :: cs) = none := by
  have hne : ∀ d, ['n', 'N', '~', 't', 'T', 'f', 'F'].contains d → c ≠ d := by
    rintro d hd rfl
    rcases hc with hc | rfl
    · obtain ⟨k, hk, rfl⟩ := Text.exists_digit_of_isDigit hc
      clear hc
      revert k
      decide
    · exact absurd hd (by decide)
  have h := hne
  simp at h
  simp [isNullText, boolOf?, h]

/-- The text of an integer starts with a digit or a hyphen. -/
theorem exists_integer (i : Int) :
    ∃ c cs, Text.integer i = c :: cs ∧ (Text.isDigit c ∨ c = '-') := by
  obtain ⟨c, cs, hcs, hc, -⟩ := Binary64.exists_digit i.natAbs
  rw [Text.integer, hcs]
  split
  · exact ⟨'-', _, rfl, .inr rfl⟩
  · exact ⟨c, cs, rfl, .inl hc⟩

theorem plainNode?_integer (i : Int64) :
    plainNode? (Text.integer i.toInt) = some (.integer i.toInt) := by
  have hlow := i.le_toInt
  have hupp := i.toInt_lt
  have hdouble : isDoubleWord i.toInt := by
    simp only [isDoubleWord, Bool.and_eq_true, decide_eq_true_eq]
    omega
  have hword : isWord i.toInt := by
    simp only [isWord, Bool.and_eq_true, decide_eq_true_eq]
    omega
  have hinteger := integerOf?_integer i.toInt
  obtain ⟨c, cs, hcs, hc⟩ := exists_integer i.toInt
  rw [hcs] at hinteger ⊢
  obtain ⟨hnull, hbool⟩ := not_word_of_head hc cs
  simp [plainNode?, hnull, hbool, hinteger, Option.filter, hdouble, hword]

/-! ## Floating point numbers -/

theorem naturalOf?_eq_none {base : Nat} {c : Char} {cs : List Char} (hc : c ∈ cs)
    (h : ∀ d, Text.hexValue? c = some d → base ≤ d) : naturalOf? base cs = none := by
  have hfold (n : Nat) : cs.foldlM (fun n c =>
      match Text.hexValue? c with
      | some d => if d < base then some (base * n + d) else none
      | none => none) n = none := by
    induction cs generalizing n with
    | nil => cases hc
    | cons d cs ih =>
      rw [List.foldlM_cons]
      rcases List.mem_cons.1 hc with rfl | hc
      · cases hd : Text.hexValue? c with
        | none => rfl
        | some d => simp [Nat.not_lt.2 (h d hd)]
      · have hrest := ih hc
        cases hd : Text.hexValue? d with
        | none => rfl
        | some k =>
          simp only
          split
          · simpa using hrest _
          · rfl
  rw [naturalOf?]
  split
  · rfl
  · exact hfold 0

theorem all_isNumeralChar_toDigits (n : Nat) : ∀ c ∈ Nat.toDigits 10 n, isNumeralChar c :=
  fun c hc => isNumeralChar_of_isDigit (List.all_eq_true.1 (Text.all_isDigit_toDigits n) c hc)

/-- What is laid out in the style of documents are characters of a number, and one of
    them is a point or the letter of an exponent. -/
theorem layout_chars (d : Binary64.Decimal) : (∀ c ∈ numberStyle.layout d, isNumeralChar c) ∧
    ∃ c ∈ numberStyle.layout d, c = '.' ∨ c = 'e' := by
  refine ⟨fun c hc => ?_, Binary64.exists_mark numberStyle d rfl⟩
  rcases Binary64.mem_layout numberStyle d hc with h | h
  · exact isNumeralChar_of_isDigit h
  · simp only [List.mem_cons, List.not_mem_nil, or_false] at h
    rcases h with rfl | rfl | rfl | rfl <;> decide

/-- The text of a finite number: an optional minus sign, a digit, and characters of a
    number, of which one is a point or the letter of an exponent. -/
theorem exists_floatText (negative : Bool) {m : Nat} {q : Int} (h : Binary64.IsCanonical m q) :
    ∃ c cs, floatText (.finite negative m q h) = (if negative then ['-'] else []) ++ c :: cs ∧
      Text.isDigit c ∧ cs.all isNumeralChar ∧ ∃ d ∈ cs, d = '.' ∨ d = 'e' := by
  obtain ⟨c, cs, hcs, hc⟩ :=
    Binary64.exists_layout numberStyle (Binary64.shortest numberStyle.tie m q)
  obtain ⟨hall, d, hd, hmark⟩ := layout_chars (Binary64.shortest numberStyle.tie m q)
  rw [hcs] at hall hd
  have hne : d ≠ c := by
    rintro rfl
    rcases hmark with rfl | rfl <;> exact absurd hc (by decide)
  refine ⟨c, cs, ?_, hc, ?_, d, (List.mem_cons.1 hd).resolve_left hne, hmark⟩
  · rw [floatText, Binary64.write_finite, hcs]
  · exact List.all_eq_true.2 fun x hx => hall x (List.mem_cons_of_mem c hx)

/-- A text with a point or the letter of an exponent behind its first digit is no integer
    and has no zero in front that counts. -/
theorem not_integer_of_mark {c d : Char} {cs : List Char} (hc : Text.isDigit c)
    (hall : cs.all isNumeralChar) (hd : d ∈ cs) (hmark : d = '.' ∨ d = 'e') (negative : Bool) :
    integerOf? ((if negative then ['-'] else []) ++ c :: cs) = none ∧
      isZeroPadded ((if negative then ['-'] else []) ++ c :: cs) = false := by
  obtain ⟨hsign, hplus⟩ := withoutSign_of_digit hc cs
  -- Neither the point nor the letter is a decimal digit.
  have hnatural : naturalOf? 10 (c :: cs) = none := by
    refine naturalOf?_eq_none (List.mem_cons_of_mem c hd) fun k hk => ?_
    rcases hmark with rfl | rfl
    · cases hk
    · obtain rfl : 14 = k := Option.some.inj hk
      decide
  have hbased : basedOf? (c :: cs) = none := basedOf?_eq_none hall
  have hdigits : cs.all Text.isDigit = false := by
    rw [List.all_eq_false]
    refine ⟨d, hd, ?_⟩
    rcases hmark with rfl | rfl <;> decide
  -- A zero in front counts only if digits alone follow.
  have hpadded : ∀ ds, withoutSign ds = c :: cs → isZeroPadded ds = false := by
    intro ds hds
    rw [isZeroPadded, hds]
    split
    · next heq =>
      obtain ⟨-, rfl⟩ := List.cons.inj heq
      exact hdigits
    · rfl
  cases negative
  · refine ⟨?_, hpadded _ hsign⟩
    change integerOf? (c :: cs) = none
    rw [integerOf?, hplus, hbased, hnatural, hpadded _ hsign]
    · rfl
    · intro ds heq
      obtain rfl := (List.cons.inj heq).1
      exact absurd hc (by decide)
  · refine ⟨?_, hpadded _ rfl⟩
    change integerOf? ('-' :: c :: cs) = none
    rw [integerOf?, hbased, hnatural, hpadded _ rfl]
    rfl

/-- A numeral is read as a floating point number if it is none of the other kinds. -/
theorem floatOf?_numeral {c : Char} {cs : List Char} (hc : Text.isDigit c) (negative : Bool)
    {x : Binary64} (hx : Binary64.ofNumeral? ((if negative then ['-'] else []) ++ c :: cs) = some x)
    (hfinite : x.isFinite) : floatOf? ((if negative then ['-'] else []) ++ c :: cs) = some x := by
  have hdot : c ≠ '.' := by
    rintro rfl
    exact absurd hc (by decide)
  have hhyphen : c ≠ '-' := by
    rintro rfl
    exact absurd hc (by decide)
  have hplus : withoutPlus ((if negative then ['-'] else []) ++ c :: cs) =
      (if negative then ['-'] else []) ++ c :: cs := by
    cases negative
    · exact (withoutSign_of_digit hc cs).2
    · rfl
  rw [floatOf?, hplus, hx]
  cases negative <;> simp [hdot, hhyphen, hfinite]

/-- A floating point number is read back. -/
theorem plainNode?_float (x : Binary64) : plainNode? (floatText x) = some (.float x) := by
  cases x with
  | finite negative m q h =>
    obtain ⟨c, cs, hcs, hc, hall, d, hd, hmark⟩ := exists_floatText negative h
    have hread := Binary64.ofNumeral?_write numberStyle negative h
    change Binary64.ofNumeral? (floatText _) = _ at hread
    rw [hcs] at hread ⊢
    have hfloat := floatOf?_numeral hc negative hread rfl
    obtain ⟨hinteger, hpadded⟩ := not_integer_of_mark hc hall hd hmark negative
    obtain ⟨a, as, htext, ha⟩ : ∃ a as, (if negative then ['-'] else []) ++ c :: cs = a :: as ∧
        (Text.isDigit a ∨ a = '-') := by
      cases negative
      · exact ⟨c, cs, rfl, .inl hc⟩
      · exact ⟨'-', c :: cs, rfl, .inr rfl⟩
    rw [htext] at hfloat hinteger hpadded ⊢
    obtain ⟨hnull, hbool⟩ := not_word_of_head ha as
    simp [plainNode?, hnull, hbool, hinteger, hpadded, hfloat]
  | infinite negative => cases negative <;> rfl
  | nan => rfl

/-- A number is read back as a number of its kind. -/
theorem plainNode?_printNumber (x : Number) : plainNode? (printNumber x) = some x.node := by
  cases x with
  | integer i => exact plainNode?_integer i
  | float x => exact plainNode?_float x

/-- The text of a number has the form of a plain scalar. -/
theorem fitsPlain_printNumber (x : Number) : fitsPlain (printNumber x) := by
  cases x with
  | integer i =>
    have hall := all_isNumeralChar_toDigits i.toInt.natAbs
    obtain ⟨c, cs, hcs, hc, -⟩ := Binary64.exists_digit i.toInt.natAbs
    rw [hcs] at hall
    have hdigits : cs.all isNumeralChar :=
      List.all_eq_true.2 fun d hd => hall d (List.mem_cons_of_mem c hd)
    rw [printNumber, Text.integer, hcs]
    split
    · exact fitsPlain_numeral hc hdigits true
    · exact fitsPlain_numeral hc hdigits false
  | float x =>
    cases x with
    | finite negative m q h =>
      obtain ⟨c, cs, hcs, hc, hall, -⟩ := exists_floatText negative h
      rw [printNumber, hcs]
      exact fitsPlain_numeral hc hall negative
    | infinite negative => cases negative <;> decide
    | nan => decide

end Yaml

end ManifestBundle
