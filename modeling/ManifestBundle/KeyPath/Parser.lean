import ManifestBundle.KeyPath.Printer
import ManifestBundle.Text.Blank

/-!
# Reading a key path

A text that is blank is the path to the root. Any other text is an *element*
followed by further elements: a *bare* segment is a run of characters that are
not reserved, read as an index if all of them are digits; a *bracket* holds an
index in digits or a key in single quotes, where a backslash stands for the
character after it. A bare segment that does not come first has a dot before it.

A text outside this grammar is refused with the cause and, where there is one,
the position of the character at fault, in bytes of UTF-8 from the start.
-/

namespace ManifestBundle.KeyPath

/-- Why a text is not a key path. -/
inductive SyntaxError where
  /-- A character that cannot stand at this position. -/
  | unexpected (found : Char) (position : Nat)
  /-- No character where a bare segment should start. -/
  | emptySegment (position : Nat)
  /-- Neither a digit nor a quote after an opening bracket. -/
  | expectedIndex (position : Nat)
  /-- An index of 2⁶⁴ or more. -/
  | indexTooLarge (digits : List Char)
  /-- The text ends inside a quoted key. -/
  | unterminatedKey
  /-- Another character where the closing bracket should stand. -/
  | expectedBracket (found : Char) (position : Nat)
  /-- The text ends where the closing bracket should stand. -/
  | bracketNotClosed
deriving DecidableEq, Repr

namespace SyntaxError

/-- The wording of the cause. -/
def message : SyntaxError → String
  | .unexpected c n => s!"unexpected '{c}' at position {n}"
  | .emptySegment n => s!"empty segment at position {n}"
  | .expectedIndex n => s!"expected index at position {n}"
  | .indexTooLarge digits => s!"index {String.ofList digits} is too large"
  | .unterminatedKey => "unterminated quoted key"
  | .expectedBracket c n => s!"expected ']' but found '{c}' at position {n}"
  | .bracketNotClosed => "expected ']' but reached end of path"

end SyntaxError

/-- The length of a text in bytes of UTF-8. -/
def byteLength (cs : List Char) : Nat :=
  (String.ofList cs).utf8ByteSize

/-- The index that a run of digits stands for. -/
def index? (digits : List Char) : Except SyntaxError Segment :=
  let n := Nat.ofDigitChars 10 digits 0
  if n < UInt64.size then .ok (.index (UInt64.ofNat n)) else .error (.indexTooLarge digits)

/-- A segment read off the front of `cs`, the position after it and the text that
    is left, which is no longer than `cs`. -/
structure Element (cs : List Char) where
  segment : Segment
  position : Nat
  rest : List Char
  rest_le : rest.length ≤ cs.length

/-- A bare segment at the front of a text that starts at position `n`. -/
def bare (n : Nat) (cs : List Char) : Except SyntaxError (Element cs) :=
  let run := cs.takeWhile (!isReserved ·)
  let rest := cs.dropWhile (!isReserved ·)
  have le : rest.length ≤ cs.length := (List.dropWhile_suffix _).length_le
  let finish : Except SyntaxError (Element cs) :=
    if run.isEmpty then .error (.emptySegment n)
    else if run.all Text.isDigit then
      (index? run).map fun s => ⟨s, n + byteLength run, rest, le⟩
    else .ok ⟨.key (String.ofList run), n + byteLength run, rest, le⟩
  match rest.head? with
  | some ']' => .error (.unexpected ']' (n + byteLength run))
  | some '\'' => .error (.unexpected '\'' (n + byteLength run))
  | _ => finish

/-- A quoted key up to its closing quote: its characters without the escapes, its
    length in bytes as written, and the text after the quote. -/
def unquote : List Char → Option (List Char × Nat × List Char)
  | [] => none
  | '\'' :: rest => some ([], 1, rest)
  | ['\\'] => none
  | '\\' :: c :: rest =>
    (unquote rest).map fun (key, n, left) => (c :: key, 1 + c.utf8Size + n, left)
  | c :: rest => (unquote rest).map fun (key, n, left) => (c :: key, c.utf8Size + n, left)

theorem unquote_le {cs key left : List Char} {n : Nat}
    (h : unquote cs = some (key, n, left)) : left.length ≤ cs.length := by
  fun_induction unquote cs generalizing key n with
  | case1 => simp at h
  | case2 rest => cases h; simp
  | case3 => simp at h
  | case4 c rest ih =>
    obtain ⟨⟨k, m, l⟩, hr, he⟩ := Option.map_eq_some_iff.1 h
    cases he
    exact Nat.le_succ_of_le (Nat.le_succ_of_le (ih hr))
  | case5 c rest _ _ _ ih =>
    obtain ⟨⟨k, m, l⟩, hr, he⟩ := Option.map_eq_some_iff.1 h
    cases he
    exact Nat.le_succ_of_le (ih hr)

/-- The closing bracket at position `n`, after the segment of a bracket. -/
def closeBracket (s : Segment) (n : Nat) {cs : List Char} (rest : List Char)
    (le : rest.length ≤ cs.length) : Except SyntaxError (Element cs) :=
  match rest with
  | [] => .error .bracketNotClosed
  | ']' :: left => .ok ⟨s, n + 1, left, Nat.le_trans (Nat.le_succ _) le⟩
  | c :: _ => .error (.expectedBracket c n)

/-- What an opening bracket opens: `cs` is the text after the bracket and starts at
    position `n`. -/
def bracket (n : Nat) (cs : List Char) : Except SyntaxError (Element cs) :=
  match cs with
  | '\'' :: quotedKey =>
    match h : unquote quotedKey with
    | none => .error .unterminatedKey
    | some (key, size, rest) =>
      closeBracket (.key (String.ofList key)) (n + 1 + size) rest
        (Nat.le_succ_of_le (unquote_le h))
  | cs =>
    let digits := cs.takeWhile Text.isDigit
    if digits.isEmpty then .error (.expectedIndex n)
    else do
      let s ← index? digits
      closeBracket s (n + byteLength digits) (cs.dropWhile Text.isDigit)
        (List.dropWhile_suffix _).length_le

/-- The elements after the first one, from position `n` on. -/
def elements (n : Nat) (cs : List Char) : Except SyntaxError (List Segment) :=
  match cs with
  | [] => .ok []
  | '.' :: rest => do
    let e ← bare (n + 1) rest
    have : e.rest.length < rest.length + 1 := Nat.lt_succ_of_le e.rest_le
    let more ← elements e.position e.rest
    return e.segment :: more
  | '[' :: rest => do
    let e ← bracket (n + 1) rest
    have : e.rest.length < rest.length + 1 := Nat.lt_succ_of_le e.rest_le
    let more ← elements e.position e.rest
    return e.segment :: more
  | c :: _ => .error (.unexpected c n)
termination_by cs.length

/-- The path that a list of characters spells. -/
def ofChars (cs : List Char) : Except SyntaxError KeyPath := do
  if Text.allBlank cs then return root
  if cs.head? = some '[' then return ⟨← elements 0 cs⟩
  let first ← bare 0 cs
  let more ← elements first.position first.rest
  return ⟨first.segment :: more⟩

/-- The path that a text spells. -/
def parse (text : String) : Except SyntaxError KeyPath :=
  ofChars text.toList

end ManifestBundle.KeyPath
