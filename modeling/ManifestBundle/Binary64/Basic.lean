/-!
# Binary64 numbers

The floating point numbers of a data tree: zero with either sign, the finite
numbers `± m · 2 ^ q` with a 53 bit significand, the two infinities and *not a
number*. A finite number has one representation here, as its significand is as
large as it can be for its exponent, so equality of representations is equality
of numbers that keeps the two zeros apart. `agrees` is the comparison of the
standard instead, where the zeros agree and nothing agrees with not a number.
-/

namespace ManifestBundle

-- Powers are the ones of the core library, also where Mathlib has its own.
attribute [local instance (high)] instPowNat

/-- A significand and exponent as the format stores them: 53 bits, of which the
    first is set unless the exponent is the least. -/
structure Binary64.IsCanonical (significand : Nat) (exponent : Int) : Prop where
  lt : significand < 2 ^ (53 : Nat)
  normal : 2 ^ (52 : Nat) ≤ significand ∨ exponent = -1074
  exponent_ge : -1074 ≤ exponent
  exponent_le : exponent ≤ 971

instance (m : Nat) (q : Int) : Decidable (Binary64.IsCanonical m q) :=
  decidable_of_iff (m < 2 ^ (53 : Nat) ∧ (2 ^ (52 : Nat) ≤ m ∨ q = -1074) ∧ -1074 ≤ q ∧ q ≤ 971)
    ⟨fun ⟨a, b, c, d⟩ => ⟨a, b, c, d⟩, fun ⟨a, b, c, d⟩ => ⟨a, b, c, d⟩⟩

/-- A number of the binary64 format. -/
inductive Binary64 where
  /-- The number `± significand · 2 ^ exponent`. -/
  | finite (negative : Bool) (significand : Nat) (exponent : Int)
      (canonical : Binary64.IsCanonical significand exponent)
  /-- An infinity. -/
  | infinite (negative : Bool)
  /-- Not a number. -/
  | nan
deriving DecidableEq

namespace Binary64

/-- Zero with the given sign. -/
def zero (negative : Bool) : Binary64 :=
  .finite negative 0 (-1074) (by decide)

instance : Inhabited Binary64 :=
  ⟨zero false⟩

/-- Neither infinite nor not a number. -/
def isFinite : Binary64 → Bool
  | .finite .. => true
  | _ => false

/-- The comparison of the standard. -/
def agrees : Binary64 → Binary64 → Bool
  | .finite s m q _, .finite s' m' q' _ =>
    (m == 0 && m' == 0) || (s == s' && m == m' && q == q')
  | .infinite s, .infinite s' => s == s'
  | _, _ => false

end Binary64

end ManifestBundle
