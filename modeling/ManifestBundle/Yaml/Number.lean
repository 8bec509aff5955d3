import ManifestBundle.Binary64.Notation

/-!
# Floating point numbers in YAML

How a floating point number is spelled in a YAML document, as a value or as a key.
The spelling always has a point, an exponent or both, or is one of the names of the
numbers that are not finite, so that it is not read as an integer.
-/

namespace ManifestBundle.Yaml

/-- Numbers from `1e-5` up to `1e16` have every digit in its place. -/
def numberStyle : Binary64.Style where
  tie := .even
  positional e := -5 ≤ e && e < 16
  keepsPoint := true
  plusSign := false
  nan := ['.', 'n', 'a', 'n']
  infinite := ['.', 'i', 'n', 'f']
  negativeInfinite := ['-', '.', 'i', 'n', 'f']

/-- The spelling of a floating point number. -/
def floatText (x : Binary64) : List Char :=
  numberStyle.write x

end ManifestBundle.Yaml
