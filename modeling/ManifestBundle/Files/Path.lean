import ManifestBundle.Text.Split

/-!
# Paths as text

A path is a text in which slashes part the names of a way through directories. The
functions here look at the text alone.
-/

namespace ManifestBundle.Path

/-- The pieces of a path between its slashes. -/
def pieces (path : String) : List (List Char) :=
  Text.splitOn '/' path.toList

/-- The path of a name in a directory. -/
def join (directory name : String) : String :=
  if directory.toList.getLast? = some '/' then directory ++ name else directory ++ "/" ++ name

/-- The last name in a path; there is none if the path ends by going up. -/
def fileName? (path : String) : Option (List Char) :=
  match ((pieces path).filter fun p => !(p.isEmpty || p = ['.'])).getLast? with
  | some name => if name = ['.', '.'] then none else some name
  | none => none

/-- What stands behind the last dot in the last name, unless the name starts with that
    dot. -/
def extension? (path : String) : Option (List Char) := do
  let (stem, extension) ← Text.cutLast? '.' (← fileName? path)
  if stem.isEmpty then none else some extension

/-- The path ends with the given text. -/
def endsWith (path ending : String) : Bool :=
  ending.toList.isSuffixOf path.toList

end ManifestBundle.Path
