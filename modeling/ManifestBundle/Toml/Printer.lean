import ManifestBundle.Toml.Quoted

/-!
# Writing TOML

Keys and texts in the form that needs the fewest escapes: a key without quotes if it
can do without, and a text between double quotes, else between single quotes, if it
holds nothing that would need an escape there. A text that holds line breaks goes
between tripled quotes. An array of several texts has each on a line of its own.
-/

namespace ManifestBundle.Toml

/-- The length of the longest run of a character in a text. -/
def longestRun (c : Char) (cs : List Char) : Nat :=
  (cs.foldl (fun (run, longest) d =>
    let run := if c = d then run + 1 else 0
    (run, max longest run)) (0, 0)).2

/-- A control character that stands for itself in no quoted text. -/
def isControl (c : Char) : Bool :=
  (c < ' ' && c ≠ '\t' && c ≠ '\n') || c = '\x7f'

/-- A character between double quotes. -/
def basicChar (c : Char) : List Char :=
  match escapes.find? fun (_, d) => d = c with
  | some (letter, _) => ['\\', letter]
  | none =>
    if isControl c then '\\' :: 'u' :: (Text.paddedHex 4 c.toNat).map Char.toUpper else [c]

/-- The text between double quotes. -/
def basicText (cs : List Char) : List Char :=
  '"' :: cs.flatMap basicChar ++ ['"']

/-- The characters of a text between tripled double quotes, behind a run of the given
    number of quotes. Line breaks stand for themselves, and so do two quotes side by
    side, but not a third. -/
def multilineChars (run : Nat) : List Char → List Char
  | [] => []
  | c :: cs =>
    if c = '"' then
      if run < 2 then c :: multilineChars (run + 1) cs
      else '\\' :: '"' :: multilineChars 0 cs
    else if c = '\n' then c :: multilineChars 0 cs
    else basicChar c ++ multilineChars 0 cs

/-- The text between tripled double quotes. -/
def multilineText (cs : List Char) : List Char :=
  ['"', '"', '"', '\n'] ++ multilineChars 0 cs ++ ['"', '"', '"']

/-- The text between single quotes. -/
def literalText (cs : List Char) : List Char :=
  '\'' :: cs ++ ['\'']

/-- The text between tripled single quotes. -/
def multilineLiteralText (hasLineBreak : Bool) (cs : List Char) : List Char :=
  ['\'', '\'', '\''] ++ (if hasLineBreak then ['\n'] else []) ++ cs ++ ['\'', '\'', '\'']

/-- A text as a value. -/
def printText (s : String) : List Char :=
  let cs := s.toList
  let controls := cs.any isControl
  let backslash := cs.contains '\\'
  let lineBreak := cs.contains '\n'
  let double := longestRun '"' cs
  let single := longestRun '\'' cs
  if !controls && !backslash && double = 0 && !lineBreak then basicText cs
  else if !controls && single = 0 && !lineBreak then literalText cs
  else if !controls && !backslash && double ≤ 2 then
    if lineBreak then multilineText cs
    else ['"', '"', '"'] ++ multilineChars 0 cs ++ ['"', '"', '"']
  else if !controls && single ≤ 2 then multilineLiteralText lineBreak cs
  else if lineBreak then multilineText cs
  else basicText cs

/-- A text as a key. -/
def printKey (s : String) : List Char :=
  let cs := s.toList
  let controls := cs.any fun c => isControl c || c = '\n'
  if !cs.isEmpty && cs.all Text.isWord then cs
  else if !controls && !cs.contains '\\' && !cs.contains '"' then basicText cs
  else if !controls && !cs.contains '\'' then literalText cs
  else basicText cs

/-- An array of texts. -/
def printTexts (texts : List String) : List Char :=
  match texts with
  | [] => ['[', ']']
  | [s] => '[' :: printText s ++ [']']
  | _ =>
    '[' :: texts.flatMap (fun s => '\n' :: ' ' :: ' ' :: ' ' :: ' ' :: printText s ++ [',']) ++
      ['\n', ']']

/-- A line that gives a key its value. -/
def printPair (key : String) (value : List Char) : List Char :=
  printKey key ++ ' ' :: '=' :: ' ' :: value ++ ['\n']

end ManifestBundle.Toml
