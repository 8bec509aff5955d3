import ManifestBundle.Text.Digit

/-!
# Dates and times in TOML

A date has four digits for the year and two each for the month and the day, with
hyphens between them; a time of day has two digits each for the hour, the minute and
the second, with colons between them, and perhaps a fraction of the second. A date
may be followed by a time, and that by its offset from universal time.
-/

namespace ManifestBundle.Toml

/-- A number of exactly `width` digits here, and what is behind it. -/
def fixedNumber? (width : Nat) (cs : List Char) : Option (Nat × List Char) :=
  let ds := cs.take width
  if ds.length = width && ds.all Text.isDigit then
    some (Nat.ofDigitChars 10 ds 0, cs.drop width)
  else none

/-- A number of two digits within bounds here. -/
def field? (least greatest : Nat) (cs : List Char) : Option (Nat × List Char) := do
  let (n, cs) ← fixedNumber? 2 cs
  if least ≤ n ∧ n ≤ greatest then some (n, cs) else none

/-- A given character here, and what is behind it. -/
def mark? (c : Char) : List Char → Option (List Char)
  | d :: cs => if c = d then some cs else none
  | [] => none

/-- The number of days in a month of a year. -/
def daysIn (year month : Nat) : Nat :=
  if month = 2 then (if year % 4 = 0 ∧ (year % 100 ≠ 0 ∨ year % 400 = 0) then 29 else 28)
  else if month = 4 ∨ month = 6 ∨ month = 9 ∨ month = 11 then 30
  else 31

/-- What is behind the date here. -/
def afterDate? (cs : List Char) : Option (List Char) := do
  let (year, cs) ← fixedNumber? 4 cs
  let (month, cs) ← field? 1 12 (← mark? '-' cs)
  let (_, cs) ← field? 1 (daysIn year month) (← mark? '-' cs)
  return cs

/-- What is behind the time of day here. -/
def afterTime? (cs : List Char) : Option (List Char) := do
  let (_, cs) ← field? 0 23 cs
  let (_, cs) ← field? 0 59 (← mark? ':' cs)
  let (_, cs) ← field? 0 60 (← mark? ':' cs)
  match cs with
  | '.' :: c :: rest => return if Text.isDigit c then rest.dropWhile Text.isDigit else cs
  | _ => return cs

/-- What is behind the offset here, if there is one. -/
def afterOffset? (cs : List Char) : Option (List Char) :=
  match cs with
  | [] => some []
  | c :: rest =>
    if c = 'Z' || c = 'z' then some rest
    else if c = '+' || c = '-' then do
      let (_, rest) ← field? 0 23 rest
      let (_, rest) ← field? 0 59 (← mark? ':' rest)
      return rest
    else some cs

/-- What is behind the time of day and the offset that may follow a date. -/
def afterDateTime? (cs : List Char) : Option (List Char) :=
  match cs with
  | [] => some []
  | c :: rest =>
    if c = 'T' || c = 't' || c = ' ' then
      match afterTime? rest with
      | some rest => afterOffset? rest
      | none => some cs
    else some cs

/-- The date, the time of day or both here, and what is behind. -/
def dateTime? (cs : List Char) : Option (List Char × List Char) := do
  let rest ← match afterDate? cs with
    | some rest => afterDateTime? rest
    | none => afterTime? cs
  return (cs.take (cs.length - rest.length), rest)

end ManifestBundle.Toml
