import ManifestBundle.Binary64.Basic

/-!
# Values of a TOML document

A document is a table. The keys of a table stand in the order in which they were
given.
-/

namespace ManifestBundle.Toml

/-- A value. -/
inductive Value where
  | text (s : String)
  | integer (i : Int64)
  | float (x : Binary64)
  | bool (b : Bool)
  /-- A date, a time of day or both, as it is written. -/
  | dateTime (s : String)
  | array (items : List Value)
  | table (entries : List (String × Value))

instance : Inhabited Value :=
  ⟨.table []⟩

end ManifestBundle.Toml
