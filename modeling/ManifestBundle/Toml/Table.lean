import ManifestBundle.Toml.Value

/-!
# Putting tables together

A table can be given in several places: by a header, by headers of tables in it, and
by dotted keys. While a document is read, each table keeps how it came about, since
that decides what may still be added to it:

* a key is given once, and a header names a table once, though a table may get its
  own header after those of tables in it;
* dotted keys add to tables that dotted keys have made, and to no others;
* nothing is added to a table or array that stands as a value.
-/

namespace ManifestBundle.Toml

/-- How a table came about. -/
inductive Origin where
  /-- By its own header, or as the document. -/
  | header
  /-- By the header of a table in it. -/
  | inner
  /-- By dotted keys. -/
  | dotted
deriving DecidableEq, Repr

/-- What a key stands for while a document is read. -/
inductive Item where
  | value (v : Value)
  | table (origin : Origin) (entries : List (String × Item))
  /-- An array of tables that have headers of their own. -/
  | tables (rows : List (List (String × Item)))

/-- The entries of a table while a document is read. -/
abbrev Entries := List (String × Item)

/-- The entries with what a key stands for replaced, or added at the end. -/
def Entries.set (key : String) (item : Item) : Entries → Entries
  | [] => [(key, item)]
  | (k, i) :: es => if k = key then (k, item) :: es else (k, i) :: set key item es

/-- Changes the table that a path leads to, and makes the tables on the way that are
    not there. Arrays of tables are entered at their last table. With `dotted` the
    path is that of dotted keys. -/
def Entries.change? (dotted : Bool) (f : Origin → Entries → Option Entries) (origin : Origin) :
    List String → Entries → Option Entries
  | [], es => f origin es
  | key :: path, es => do
    let item ← match es.lookup key with
      | none =>
        let made := if dotted then .dotted else .inner
        pure (Item.table made (← change? dotted f made path []))
      | some (.table o inside) =>
        if dotted && o = .header then none
        pure (Item.table o (← change? dotted f o path inside))
      | some (.tables rows) =>
        let last ← rows.getLast?
        pure (Item.tables (rows.dropLast ++ [← change? dotted f .header path last]))
      | some (.value _) => none
    return es.set key item

/-- Splits a path into the path of a table and the key in it. -/
def splitPath? (path : List String) : Option (List String × String) :=
  path.getLast?.map fun key => (path.dropLast, key)

/-- Adds a key to a table; dotted keys add to a table of theirs. -/
def Entries.insert? (path : List String) (v : Value) (es : Entries) : Option Entries := do
  let (path, key) ← splitPath? path
  let add (origin : Origin) (es : Entries) : Option Entries :=
    -- A key without dots adds to no table of dotted keys, and one with dots to no other.
    if decide (origin = .dotted) == path.isEmpty || (es.lookup key).isSome then none
    else some (es ++ [(key, .value v)])
  change? true add .header path es

/-- Starts the table that a header names. -/
def Entries.startTable? (path : List String) (es : Entries) : Option Entries := do
  let (path, key) ← splitPath? path
  let start (_ : Origin) (es : Entries) : Option Entries :=
    match es.lookup key with
    | none => some (es ++ [(key, .table .header [])])
    | some (.table .inner inside) => some (es.set key (.table .header inside))
    | some _ => none
  change? false start .header path es

/-- Starts the next table of the array that a header names. -/
def Entries.startRow? (path : List String) (es : Entries) : Option Entries := do
  let (path, key) ← splitPath? path
  let start (_ : Origin) (es : Entries) : Option Entries :=
    match es.lookup key with
    | none => some (es ++ [(key, .tables [[]])])
    | some (.tables rows) => some (es.set key (.tables (rows ++ [[]])))
    | some _ => none
  change? false start .header path es

mutual

/-- The value that an item is in the end. -/
def Item.toValue : Item → Value
  | .value v => v
  | .table _ es => .table (entriesToValues es)
  | .tables rows => .array (rowsToValues rows)
termination_by structural i => i

/-- The values of the entries of a table. -/
def entriesToValues : List (String × Item) → List (String × Value)
  | [] => []
  | (k, i) :: es => (k, i.toValue) :: entriesToValues es
termination_by structural es => es

/-- The tables of an array. -/
def rowsToValues : List (List (String × Item)) → List Value
  | [] => []
  | es :: rows => .table (entriesToValues es) :: rowsToValues rows
termination_by structural rows => rows

end

/-- The table of keys and values that stand side by side in braces. -/
def inlineTable? (pairs : List (List String × Value)) : Option Value := do
  let es ← pairs.foldlM (fun (es : Entries) (path, v) => es.insert? path v) []
  return .table (entriesToValues es)

end ManifestBundle.Toml
