import ManifestBundle.Value
import ManifestBundle.Yaml.Number
import ManifestBundle.Yaml.ScalarText

/-!
# Data trees as YAML documents

A map is written as a block mapping and a sequence as a block sequence, each entry
on a line of its own, and both as an empty flow collection if nothing is in them.
A collection stands two columns to the right of the one that it is in, but a
sequence that is the value of a key stands at the column of the key.

A key that is too long for one line, or holds a line break, stands behind a question
mark.
-/

namespace ManifestBundle.Yaml

/-- The text with a newline at its end, unless it ends with a line break. -/
def endLine (cs : List Char) : List Char :=
  if cs.getLast?.any isBreak then cs else cs ++ ['\n']

/-- The key can stand in front of a colon. -/
def isSimpleKey (key : String) : Bool :=
  key.utf8ByteSize ≤ 128 && !key.toList.any endsLine

/-- The spelling of a scalar. -/
def printNumber : Number → List Char
  | .integer i => Text.integer i.toInt
  | .float x => floatText x

mutual

/-- The lines of a value, the first of which starts at column `n`. -/
def printNode (n : Nat) : Value → List Char
  | .null => "null\n".toList
  | .bool b => (if b then "true\n" else "false\n").toList
  | .number x => printNumber x ++ ['\n']
  | .text s => endLine (scalarText n s.toList)
  | .sequence [] => "[]\n".toList
  | .sequence (v :: vs) => printItems n (v :: vs)
  | .map [] => "\x7b\x7d\n".toList
  | .map (e :: es) => printEntries n (e :: es)
termination_by structural v => v

/-- The lines of the items of a sequence. -/
def printItems (n : Nat) : List Value → List Char
  | [] => []
  | v :: vs =>
    '-' :: ' ' :: printNode (n + 2) v ++
      (match vs with
        | [] => []
        | _ :: _ => pad n ++ printItems n vs)
termination_by structural vs => vs

/-- The lines of the entries of a map. -/
def printEntries (n : Nat) : List (String × Value) → List Char
  | [] => []
  | (key, v) :: es =>
    (if isSimpleKey key then
        scalarText (n + 2) key.toList ++ ':' ::
          (match v with
            | .sequence (_ :: _) => '\n' :: pad n ++ printNode n v
            | .map (_ :: _) => '\n' :: pad (n + 2) ++ printNode (n + 2) v
            | _ => ' ' :: printNode (n + 2) v)
      else
        '?' :: ' ' :: endLine (scalarText (n + 2) key.toList) ++ pad n ++
          ':' :: ' ' :: printNode (n + 2) v) ++
      (match es with
        | [] => []
        | _ :: _ => pad n ++ printEntries n es)
termination_by structural es => es

end

/-- The document of a value. -/
def print (v : Value) : List Char :=
  if v.isContainer then printNode 0 v else printNode 2 v

end ManifestBundle.Yaml
