import ManifestBundle.Binary64.Numeral
import ManifestBundle.Yaml.Node
import ManifestBundle.Yaml.Token

/-!
# What a scalar stands for

A plain scalar without a tag is null, a truth value, an integer, a floating point
number or a text, whichever it is spelled as first in this order (`plain?`). An
integer is written in decimal, hexadecimal, octal or binary digits and takes at
most 64 bits, with or without a sign; one that takes more, up to 128 bits, is an
error, and a still longer one is a floating point number. Decimal digits with a
zero in front of them are a text.

The tags of the core schema ask for one of these kinds, an application's own tag is
kept, and with any other tag the scalar is a text. So is a quoted scalar.
-/

namespace ManifestBundle.Yaml

-- Powers are the ones of the core library, also where Mathlib has its own.
attribute [local instance (high)] instPowNat

/-- A spelling of null. -/
def isNullText (cs : List Char) : Bool :=
  [['n', 'u', 'l', 'l'], ['N', 'u', 'l', 'l'], ['N', 'U', 'L', 'L'], ['~']].contains cs

/-- The truth value that a text spells. -/
def boolOf? (cs : List Char) : Option Bool :=
  if [['t', 'r', 'u', 'e'], ['T', 'r', 'u', 'e'], ['T', 'R', 'U', 'E']].contains cs then some true
  else if [['f', 'a', 'l', 's', 'e'], ['F', 'a', 'l', 's', 'e'],
      ['F', 'A', 'L', 'S', 'E']].contains cs then some false
  else none

/-- The number in digits to a base; there is at least one digit. -/
def naturalOf? (base : Nat) (cs : List Char) : Option Nat :=
  if cs.isEmpty then none
  else cs.foldlM (fun n c =>
    match Text.hexValue? c with
    | some d => if d < base then some (base * n + d) else none
    | none => none) 0

/-- A text without a plus sign in front of it. -/
def withoutPlus : List Char → List Char
  | '+' :: cs => cs
  | cs => cs

/-- A text without a sign in front of it. -/
def withoutSign : List Char → List Char
  | '+' :: cs | '-' :: cs => cs
  | cs => cs

/-- Decimal digits with a zero in front of them, and perhaps a sign. -/
def isZeroPadded (cs : List Char) : Bool :=
  match withoutSign cs with
  | '0' :: c :: cs => (c :: cs).all Text.isDigit
  | _ => false

/-- The number in digits behind the mark of their base. -/
def basedOf? : List Char → Option Nat
  | '0' :: 'x' :: cs => naturalOf? 16 cs
  | '0' :: 'o' :: cs => naturalOf? 8 cs
  | '0' :: 'b' :: cs => naturalOf? 2 cs
  | _ => none

/-- The integer that a text spells. -/
def integerOf? (cs : List Char) : Option Int :=
  match cs with
  | '-' :: ds =>
    match basedOf? ds with
    | some n => some (-n)
    | none => if isZeroPadded cs then none else (naturalOf? 10 ds).map fun n => -n
  | _ =>
    match basedOf? (withoutPlus cs) with
    | some n => some n
    | none => if isZeroPadded cs then none else (naturalOf? 10 (withoutPlus cs)).map fun n => n

/-- The integer has a place in 64 bits, with or without a sign. -/
def isWord (i : Int) : Bool :=
  -2 ^ (63 : Nat) ≤ i && i < 2 ^ (64 : Nat)

/-- The integer has a place in 128 bits, with or without a sign. -/
def isDoubleWord (i : Int) : Bool :=
  -2 ^ (127 : Nat) ≤ i && i < 2 ^ (128 : Nat)

/-- The floating point number that a text spells. -/
def floatOf? (cs : List Char) : Option Binary64 :=
  let ds := withoutPlus cs
  if [['.', 'i', 'n', 'f'], ['.', 'I', 'n', 'f'], ['.', 'I', 'N', 'F']].contains ds then
    some (.infinite false)
  else if [['-', '.', 'i', 'n', 'f'], ['-', '.', 'I', 'n', 'f'],
      ['-', '.', 'I', 'N', 'F']].contains cs then some (.infinite true)
  else if [['.', 'n', 'a', 'n'], ['.', 'N', 'a', 'N'], ['.', 'N', 'A', 'N']].contains cs then
    some .nan
  else if ds ≠ cs && (ds.head? = some '+' || ds.head? = some '-') then none
  else match Binary64.ofNumeral? ds with
    | some x => if x.isFinite then some x else none
    | none => none

/-- What a plain scalar without a tag stands for; `none` if it is an integer that
    takes too many bits. -/
def plainNode? (cs : List Char) : Option Node :=
  if cs.isEmpty || isNullText cs then some .null
  else match boolOf? cs with
  | some b => some (.bool b)
  | none =>
    match (integerOf? cs).filter isDoubleWord with
    | some i => if isWord i then some (.integer i) else none
    | none =>
      match if isZeroPadded cs then none else floatOf? cs with
      | some x => some (.float x)
      | none => some (.text (String.ofList cs))

/-- The name in an application's own tag, which starts with an exclamation mark. -/
def Tag.ownName? (t : Tag) : Option String :=
  match t.octets with
  | 0x21 :: os => String.fromUTF8? ⟨(if os.isEmpty then t.octets else os).toArray⟩
  | _ => none

/-- A tag of the core schema. -/
def Tag.core (name : String) : Tag :=
  .ofText ("tag:yaml.org,2002:" ++ name)

/-- The node with the name of its tag, if that is an application's own. -/
def withTag (tag : Option Tag) (n : Node) : Node :=
  match tag.bind Tag.ownName? with
  | some name => .tagged name n
  | none => n

/-- What a scalar without a tag of the core schema stands for. -/
def untaggedNode? (cs : List Char) (isPlain : Bool) : Option Node :=
  if isPlain then plainNode? cs else some (.text (String.ofList cs))

/-- What a scalar stands for; `none` if it is not of the kind that its tag asks for. -/
def scalarNode? (tag : Option Tag) (cs : List Char) (isPlain : Bool) : Option Node :=
  match tag with
  | none => untaggedNode? cs isPlain
  | some t =>
    if t.octets.head? = some 0x21 then (untaggedNode? cs isPlain).map (withTag tag)
    else if t = .core "bool" then (boolOf? cs).map .bool
    else if t = .core "int" then ((integerOf? cs).filter isWord).map .integer
    else if t = .core "float" then (floatOf? cs).map .float
    else if t = .core "null" then (if isNullText cs then some .null else none)
    else some (.text (String.ofList cs))

end ManifestBundle.Yaml
