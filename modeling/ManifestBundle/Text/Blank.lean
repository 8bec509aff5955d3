/-!
# Blank characters

The characters with the Unicode property `White_Space`: what counts as blank
around the entries of a list of labels, and in a key path that holds nothing
else. Trimming takes them off both ends of a text and leaves the rest alone.
-/

namespace ManifestBundle.Text

/-- Whether a character has the property `White_Space`. -/
def isBlank (c : Char) : Bool :=
  let n := c.toNat
  (0x09 ≤ n && n ≤ 0x0d) || n == 0x20 || n == 0x85 || n == 0xa0 || n == 0x1680 ||
  (0x2000 ≤ n && n ≤ 0x200a) || n == 0x2028 || n == 0x2029 || n == 0x202f || n == 0x205f ||
  n == 0x3000

/-- The text without the blanks at its start. -/
def trimStart (cs : List Char) : List Char :=
  cs.dropWhile isBlank

/-- The text without the blanks at its end. -/
def trimEnd (cs : List Char) : List Char :=
  (trimStart cs.reverse).reverse

/-- The text without the blanks at either end. -/
def trim (cs : List Char) : List Char :=
  trimEnd (trimStart cs)

/-- The text is blank: it holds nothing but blanks. -/
def allBlank (cs : List Char) : Bool :=
  cs.all isBlank

end ManifestBundle.Text
