import ManifestBundle.Binary64.Basic

/-!
# The nearest binary64 number

`nearest s n d` is the number nearest to `± n / d`, where of two numbers equally
near the one with the even significand is taken. Numbers from halfway between the
largest finite number and `2 ^ 1024` on become infinite. Integers and decimal
numerals are read through it, so they are rounded once.
-/

namespace ManifestBundle.Binary64

-- Powers are the ones of the core library, also where Mathlib has its own.
attribute [local instance (high)] instPowNat

/-- The quotient `n / d` rounded to the nearest natural number, a half to the even
    one. -/
def divNearest (n d : Nat) : Nat :=
  let q := n / d
  let r := n % d
  if 2 * r < d then q else if 2 * r > d then q + 1 else q + q % 2

/-- The fraction `n / d` divided by `2 ^ q`. -/
def scale (n d : Nat) (q : Int) : Nat × Nat :=
  (n * 2 ^ (-q).toNat, d * 2 ^ q.toNat)

/-- The exponent at which the significand of `n / d` has 53 bits, or the least one
    if it has fewer bits there. -/
def exponentFor (n d : Nat) : Int :=
  let q := max (-1074) ((n.log2 : Int) - d.log2 - 53)
  let (n', d') := scale n d q
  if n' / d' < 2 ^ (53 : Nat) then q else q + 1

/-- The number nearest to `± n / d`. -/
def nearest (negative : Bool) (n d : Nat) : Binary64 :=
  if n = 0 then zero negative
  else
    let q := exponentFor n d
    let (n', d') := scale n d q
    let m := divNearest n' d'
    let (m, q) := if m = 2 ^ (53 : Nat) then (2 ^ (52 : Nat), q + 1) else (m, q)
    if h : IsCanonical m q then .finite negative m q h else .infinite negative

/-- The number nearest to an integer. -/
def ofInt (i : Int) : Binary64 :=
  nearest (i < 0) i.natAbs 1

/-- The number nearest to `± digits · 10 ^ exponent`. A numeral whose first digit
    stands far outside the range of the format is not computed. -/
def ofDecimal (negative : Bool) (digits : Nat) (exponent : Int) : Binary64 :=
  let size := (Nat.toDigits 10 digits).length
  if digits = 0 || exponent + size < -330 then zero negative
  else if exponent + size > 310 then .infinite negative
  else nearest negative (digits * 10 ^ exponent.toNat) (10 ^ (-exponent).toNat)

end ManifestBundle.Binary64
