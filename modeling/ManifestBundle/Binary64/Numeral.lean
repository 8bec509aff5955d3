import ManifestBundle.Binary64.Nearest
import ManifestBundle.Text.Digit

/-!
# Reading a floating point numeral

A numeral is an optional sign before one of: digits with an optional point among
them, before them or after them (there is at least one digit), with an optional
exponent after `e` or `E`; or `inf`, `infinity` or `nan` in any case of letters.
It stands for the number nearest to it.
-/

namespace ManifestBundle.Binary64

/-- The digits at the front of a text and the text after them. -/
def spanDigits (cs : List Char) : List Char × List Char :=
  (cs.takeWhile Text.isDigit, cs.dropWhile Text.isDigit)

/-- An optional sign: whether it is a minus, and the text after it. -/
def spanSign : List Char → Bool × List Char
  | '+' :: cs => (false, cs)
  | '-' :: cs => (true, cs)
  | cs => (false, cs)

/-- The exponent at the end of a numeral; zero if there is none. -/
def exponent? : List Char → Option Int
  | [] => some 0
  | c :: cs =>
    if c = 'e' || c = 'E' then
      let (negative, ds) := spanSign cs
      if ds.isEmpty || !ds.all Text.isDigit then none
      else
        let n := Nat.ofDigitChars 10 ds 0
        some (if negative then -n else n)
    else none

/-- A numeral without its sign, in digits. -/
def decimal? (negative : Bool) (cs : List Char) : Option Binary64 := do
  let (whole, rest) := spanDigits cs
  let (fraction, rest) := match rest with
    | '.' :: rest => spanDigits rest
    | _ => ([], rest)
  if whole.isEmpty && fraction.isEmpty then none
  let e ← exponent? rest
  return ofDecimal negative (Nat.ofDigitChars 10 (whole ++ fraction) 0) (e - fraction.length)

/-- The number that a numeral stands for. -/
def ofNumeral? (cs : List Char) : Option Binary64 :=
  let (negative, rest) := spanSign cs
  match rest.map Char.toLower with
  | ['i', 'n', 'f'] | ['i', 'n', 'f', 'i', 'n', 'i', 't', 'y'] => some (.infinite negative)
  | ['n', 'a', 'n'] => some .nan
  | _ => decimal? negative rest

end ManifestBundle.Binary64
