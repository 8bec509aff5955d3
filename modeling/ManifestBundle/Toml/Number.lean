import ManifestBundle.Binary64.Numeral
import ManifestBundle.Toml.Value

/-!
# Numbers in TOML

An integer has decimal digits without leading zeros and perhaps a sign, or, behind
the mark of the base, hexadecimal, octal or binary digits; it takes 64 bits with a
sign. A floating point number has a fraction, an exponent or both, or is the name of
an infinity or of not a number; it is not too large. Single underscores may stand
between digits.
-/

namespace ManifestBundle.Toml

-- Powers are the ones of the core library, also where Mathlib has its own.
attribute [local instance (high)] instPowNat

/-- The digits here with single underscores between them, and what is behind them. -/
def digitsAfter? (isDigit : Char → Bool) : List Char → Option (List Char × List Char)
  | '_' :: c :: cs =>
    if isDigit c then (digitsAfter? isDigit cs).map fun (ds, rest) => (c :: ds, rest) else none
  | c :: cs =>
    if isDigit c then (digitsAfter? isDigit cs).map fun (ds, rest) => (c :: ds, rest)
    else if c = '_' then none
    else some ([], c :: cs)
  | [] => some ([], [])

/-- At least one digit here, with single underscores between the digits. -/
def digits? (isDigit : Char → Bool) : List Char → Option (List Char × List Char)
  | c :: cs =>
    if isDigit c then (digitsAfter? isDigit cs).map fun (ds, rest) => (c :: ds, rest) else none
  | [] => none

/-- An optional sign here, and what is behind it. -/
def sign : List Char → List Char × List Char
  | '+' :: cs => (['+'], cs)
  | '-' :: cs => (['-'], cs)
  | cs => ([], cs)

/-- The digits of a decimal integer, without leading zeros. -/
def wholeDigits? : List Char → Option (List Char × List Char)
  | '0' :: cs => some (['0'], cs)
  | cs => digits? Text.isDigit cs

/-- A number in digits to a base. -/
def naturalOf (base : Nat) (ds : List Char) : Nat :=
  ds.foldl (fun n c => base * n + (Text.hexValue? c).getD 0) 0

/-- A digit to a base. -/
def isDigitOf (base : Nat) (c : Char) : Bool :=
  match Text.hexValue? c with
  | some d => d < base
  | none => false

/-- The integer, if it takes at most 64 bits. -/
def integerValue? (i : Int) : Option Value :=
  if -2 ^ (63 : Nat) ≤ i ∧ i < 2 ^ (63 : Nat) then some (.integer (Int64.ofInt i)) else none

/-- The integer behind the mark of its base. -/
def basedInteger? (base : Nat) (cs : List Char) : Option (Value × List Char) := do
  let (ds, rest) ← digits? (isDigitOf base) cs
  return (← integerValue? (naturalOf base ds), rest)

/-- The decimal integer here. -/
def decimalInteger? (cs : List Char) : Option (Value × List Char) := do
  let (s, cs) := sign cs
  let (ds, rest) ← wholeDigits? cs
  let n : Int := naturalOf 10 ds
  return (← integerValue? (if s = ['-'] then -n else n), rest)

/-- The integer here, and what is behind it. -/
def integer? : List Char → Option (Value × List Char)
  | '0' :: 'x' :: cs => basedInteger? 16 cs
  | '0' :: 'o' :: cs => basedInteger? 8 cs
  | '0' :: 'b' :: cs => basedInteger? 2 cs
  | cs => decimalInteger? cs

/-- A fraction here, with its point; empty if there is none. -/
def fraction? : List Char → Option (List Char × List Char)
  | '.' :: cs => (digits? Text.isDigit cs).map fun (ds, rest) => ('.' :: ds, rest)
  | cs => some ([], cs)

/-- An exponent here, with its letter; empty if there is none. -/
def exponent? : List Char → Option (List Char × List Char)
  | c :: cs =>
    if c = 'e' || c = 'E' then
      let (s, cs) := sign cs
      (digits? Text.isDigit cs).map fun (ds, rest) => ('e' :: s ++ ds, rest)
    else some ([], c :: cs)
  | [] => some ([], [])

/-- The name of a number that is not finite. -/
def nonFinite? (negative : Bool) : List Char → Option (Value × List Char)
  | 'i' :: 'n' :: 'f' :: cs => some (.float (.infinite negative), cs)
  | 'n' :: 'a' :: 'n' :: cs => some (.float .nan, cs)
  | _ => none

/-- The floating point number here, and what is behind it. -/
def float? (cs : List Char) : Option (Value × List Char) := do
  let (s, cs) := sign cs
  match nonFinite? (s = ['-']) cs with
  | some r => return r
  | none =>
    let (whole, cs) ← wholeDigits? cs
    let (fraction, cs) ← fraction? cs
    let (exponent, cs) ← exponent? cs
    if fraction.isEmpty && exponent.isEmpty then none
    let x ← Binary64.ofNumeral? (s ++ whole ++ fraction ++ exponent)
    if x = .infinite false then none
    return (.float x, cs)

end ManifestBundle.Toml
