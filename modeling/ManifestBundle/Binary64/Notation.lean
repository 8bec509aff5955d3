import ManifestBundle.Binary64.Shortest

/-!
# Writing a floating point number

A finite number is written with the fewest digits that read back. What else there
is to decide is held by a `Style`: when the point is put among the digits and when
they are followed by a power of ten, how the power is written, and what stands for
the numbers that are not finite.
-/

namespace ManifestBundle.Binary64

/-- A way of writing floating point numbers. -/
structure Style where
  /-- Which of two equally near shortest decimals is taken. -/
  tie : Tie
  /-- The magnitudes at which no power of ten is written. -/
  positional : Int → Bool
  /-- An integer is followed by `.0`. -/
  keepsPoint : Bool
  /-- A positive power of ten has a plus sign. -/
  plusSign : Bool
  /-- What stands for not a number and for the infinities. -/
  nan : List Char
  infinite : List Char
  negativeInfinite : List Char

/-- The digits with a point at its place, for the magnitude `e` of the first digit. -/
def Style.point (style : Style) (ds : List Char) (e : Int) : List Char :=
  if e < 0 then ['0', '.'] ++ List.replicate (-e - 1).toNat '0' ++ ds
  else
    let before := e.toNat + 1
    if ds.length ≤ before then
      ds ++ List.replicate (before - ds.length) '0' ++ (if style.keepsPoint then ['.', '0'] else [])
    else ds.take before ++ '.' :: ds.drop before

/-- The digits, a point after the first one, and the power of ten `e`. -/
def Style.power (style : Style) (ds : List Char) (e : Int) : List Char :=
  let mantissa := match ds with
    | [] => []
    | [d] => [d]
    | d :: rest => d :: '.' :: rest
  let sign := if e < 0 then ['-'] else if style.plusSign then ['+'] else []
  mantissa ++ 'e' :: sign ++ Nat.toDigits 10 e.natAbs

/-- The text of a number. -/
def Style.write (style : Style) : Binary64 → List Char
  | .nan => style.nan
  | .infinite negative => if negative then style.negativeInfinite else style.infinite
  | .finite negative m q _ =>
    let d := shortest style.tie m q
    let ds := Nat.toDigits 10 d.digits
    let e := d.magnitude
    (if negative then ['-'] else []) ++
      if style.positional e then style.point ds e else style.power ds e

/-- Every digit in its place and no power of ten: how a number stands in a label. -/
def plainStyle : Style where
  tie := .up
  positional _ := true
  keepsPoint := false
  plusSign := false
  nan := ['N', 'a', 'N']
  infinite := ['i', 'n', 'f']
  negativeInfinite := ['-', 'i', 'n', 'f']

/-- The text of a number with every digit in its place. -/
def plain (x : Binary64) : List Char :=
  plainStyle.write x

end ManifestBundle.Binary64
