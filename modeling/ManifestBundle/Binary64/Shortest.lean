import ManifestBundle.Binary64.Nearest

/-!
# The fewest digits that read back

A positive finite number `m · 2 ^ q` is what every real between the midpoints to
its neighbours rounds to, the midpoints included if `m` is even. `shortest` gives
the decimal number with the fewest digits in that interval and, of those with as
many digits, the one nearest to the number. Where two are equally near, a
parameter says which is taken.

The interval is searched on grids of ever finer spacing, `10 ^ k` for falling
`k`: if a point of a grid lies in the interval, so does one of the two points
around the number. All comparisons are between natural numbers. Seventeen digits
always suffice.
-/

namespace ManifestBundle.Binary64

-- Powers are the ones of the core library, also where Mathlib has its own.
attribute [local instance (high)] instPowNat

/-- Which of two equally near decimal numbers is taken. -/
inductive Tie where
  /-- The larger one. -/
  | up
  /-- The one whose last digit is even. -/
  | even
deriving DecidableEq, Repr

/-- The decimal number `digits · 10 ^ exponent`. -/
structure Decimal where
  digits : Nat
  exponent : Int
deriving DecidableEq, Repr

/-- The same number without the zeros at the end of its digits. -/
def Decimal.trim (d : Decimal) : Decimal :=
  let ds := Nat.toDigits 10 d.digits
  let zeros := (ds.reverse.takeWhile (· == '0')).length
  if d.digits = 0 then ⟨0, 0⟩ else ⟨d.digits / 10 ^ zeros, d.exponent + zeros⟩

/-- The position of the first digit of a decimal number that is not zero: it is
    at least `10 ^ magnitude` and less than ten times that. -/
def Decimal.magnitude (d : Decimal) : Int :=
  d.exponent + (Nat.toDigits 10 d.digits).length - 1

/-- The two factors that turn a multiple of `10 ^ k` and a multiple of `2 ^ q` into
    natural numbers that compare alike. -/
def commonFactors (k q : Int) : Nat × Nat :=
  (10 ^ k.toNat * 2 ^ (-q).toNat, 2 ^ q.toNat * 10 ^ (-k).toNat)

/-- The exponent `k` with `10 ^ k ≤ m · 2 ^ q < 10 ^ (k + 1)`, for a positive `m`. -/
def decimalMagnitude (m : Nat) (q : Int) : Int :=
  let guess := (m.log2 + q) * 30103 / 100000
  let reaches (k : Int) : Bool :=
    let (a, b) := commonFactors k q
    a ≤ m * b
  if reaches (guess + 1) then guess + 1 else if reaches guess then guess else guess - 1

/-- The decimal number on the grid `10 ^ k` that stands for `m · 2 ^ q`, if there is
    one: in quarters of the last place of the significand, the interval reaches from
    `4 m - low` to `4 m + 2`. -/
def onGrid (tie : Tie) (m : Nat) (q k : Int) : Option Decimal :=
  let (a, b) := commonFactors k (q - 2)
  let low := if m = 2 ^ (52 : Nat) && q ≠ -1074 then 1 else 2
  let value := 4 * m * b
  let below := value / a
  let above := below + 1
  let closed := m % 2 = 0
  -- The ends of the interval round to the number only if its significand is even.
  let hasBelow := if closed then (4 * m - low) * b ≤ below * a else (4 * m - low) * b < below * a
  let hasAbove := if closed then above * a ≤ (4 * m + 2) * b else above * a < (4 * m + 2) * b
  let upwards :=
    let twice := 2 * value
    let middle := (below + above) * a
    middle < twice || (middle = twice && (tie = .up || below % 2 = 1))
  if hasBelow && hasAbove then some ⟨if upwards then above else below, k⟩
  else if hasBelow then some ⟨below, k⟩
  else if hasAbove then some ⟨above, k⟩
  else none

/-- The first grid with a point in the interval, from `10 ^ k` on, on at most `fuel`
    grids. -/
def search (tie : Tie) (m : Nat) (q : Int) : Nat → Int → Decimal
  | 0, k => ⟨divNearest (m * 2 ^ q.toNat * 10 ^ (-k).toNat) (2 ^ (-q).toNat * 10 ^ k.toNat), k⟩
  | fuel + 1, k => (onGrid tie m q k).getD (search tie m q fuel (k - 1))

/-- The decimal number with the fewest digits that reads back as `m · 2 ^ q`. -/
def shortest (tie : Tie) (m : Nat) (q : Int) : Decimal :=
  if m = 0 then ⟨0, 0⟩ else (search tie m q 17 (decimalMagnitude m q)).trim

end ManifestBundle.Binary64
