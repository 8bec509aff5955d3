import ManifestBundle.Value

/-!
# Data trees as JSON

A value is written with each item of an array and each member of an object on a
line of its own, indented by two spaces for each collection around it. A number
that is not finite has no form in JSON and becomes null.
-/

namespace ManifestBundle.Json

/-- Numbers from `1e-5` up to `1e16` have every digit in its place. -/
def numberStyle : Binary64.Style where
  tie := .even
  positional e := -5 ≤ e && e < 16
  keepsPoint := true
  plusSign := true
  nan := ['n', 'u', 'l', 'l']
  infinite := ['n', 'u', 'l', 'l']
  negativeInfinite := ['n', 'u', 'l', 'l']

/-- A number. -/
def number : Number → List Char
  | .integer i => Text.integer i.toInt
  | .float x => numberStyle.write x

/-- A character of a string. -/
def stringChar (c : Char) : List Char :=
  if c = '"' || c = '\\' then ['\\', c]
  else if c = '\n' then ['\\', 'n']
  else if c = '\r' then ['\\', 'r']
  else if c = '\t' then ['\\', 't']
  else if c = '\x08' then ['\\', 'b']
  else if c = '\x0c' then ['\\', 'f']
  else if c.toNat < 0x20 then '\\' :: 'u' :: Text.paddedHex 4 c.toNat
  else [c]

/-- A string. -/
def string (s : String) : List Char :=
  '"' :: s.toList.flatMap stringChar ++ ['"']

/-- A line break and the indentation of a line at the given depth. -/
def newLine (depth : Nat) : List Char :=
  '\n' :: List.replicate (2 * depth) ' '

mutual

/-- A value at the given depth. -/
def printAt (depth : Nat) : Value → List Char
  | .null => "null".toList
  | .bool b => (if b then "true" else "false").toList
  | .number x => number x
  | .text s => string s
  | .sequence [] => "[]".toList
  | .sequence (v :: vs) => '[' :: printItems (depth + 1) (v :: vs) ++ newLine depth ++ [']']
  | .map [] => "\x7b\x7d".toList
  | .map (e :: es) => '\x7b' :: printMembers (depth + 1) (e :: es) ++ newLine depth ++ ['\x7d']
termination_by structural v => v

/-- The items of an array, with commas between them. -/
def printItems (depth : Nat) : List Value → List Char
  | [] => []
  | v :: vs =>
    newLine depth ++ printAt depth v ++
      (match vs with
        | [] => []
        | _ :: _ => ',' :: printItems depth vs)
termination_by structural vs => vs

/-- The members of an object, with commas between them. -/
def printMembers (depth : Nat) : List (String × Value) → List Char
  | [] => []
  | (key, v) :: es =>
    newLine depth ++ string key ++ ':' :: ' ' :: printAt depth v ++
      (match es with
        | [] => []
        | _ :: _ => ',' :: printMembers depth es)
termination_by structural es => es

end

/-- The text of a value, which is one line or ends with its closing bracket. -/
def print (v : Value) : List Char :=
  printAt 0 v

end ManifestBundle.Json
