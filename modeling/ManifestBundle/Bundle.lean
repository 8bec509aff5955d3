import ManifestBundle.DocumentError

/-!
# Bundles

A bundle is a sequence of documents in the order in which they were read. Queries
keep that order and derive new bundles without changing the old ones.

* `filter` gives the documents that a selector selects, any number of them;
* `selectOne` gives the only one, `selectAt` the one at a position among them, and
  `select` goes by whether the selector carries a position;
* `duplicates` gives the identities that several named documents share.
-/

namespace ManifestBundle

/-- Documents in the order in which they were read. -/
structure Bundle where
  documents : List Document

namespace Bundle

/-- The bundle without documents. -/
def empty : Bundle :=
  ⟨[]⟩

instance : Inhabited Bundle :=
  ⟨empty⟩

/-- The number of documents, named or not. -/
def size (b : Bundle) : Nat :=
  b.documents.length

/-- The document at a position. -/
def get? (b : Bundle) (position : Nat) : Option Document :=
  b.documents[position]?

/-- The documents that the selector selects; its position does not count. -/
def filter (b : Bundle) (s : Selector) : List Document :=
  b.documents.filter s.selects

/-- The bundle of the documents that the selector selects. -/
def filtered (b : Bundle) (s : Selector) : Bundle :=
  ⟨b.documents.filter s.selects⟩

/-- The only document that the selector selects. -/
def selectOne (b : Bundle) (s : Selector) : Except DocumentError Document :=
  match b.filter s with
  | [] => .error (.notFound s)
  | [d] => .ok d
  | ds => .error (.notUnique s ds.length)

/-- The document at a position among those that the selector selects. -/
def selectAt (b : Bundle) (s : Selector) (index : Nat) : Except DocumentError Document :=
  let found := b.filter s
  match found[index]? with
  | some d => .ok d
  | none => .error (.outOfRange s index found.length)

/-- The document at the position that the selector carries, or the only one if it
    carries none. -/
def select (b : Bundle) (s : Selector) : Except DocumentError Document :=
  match s.index with
  | some index => b.selectAt s index
  | none => b.selectOne s

/-- The bundle with one more document at its end. -/
def append (b : Bundle) (d : Document) : Bundle :=
  ⟨b.documents ++ [d]⟩

/-- The documents of one bundle and then those of the other. -/
def merge (b c : Bundle) : Bundle :=
  ⟨b.documents ++ c.documents⟩

/-- Counts of identities after one more has been counted; one that is new comes last. -/
def countOnce (id : DocumentId) : List (DocumentId × Nat) → List (DocumentId × Nat)
  | [] => [(id, 1)]
  | (i, n) :: counts => if i = id then (i, n + 1) :: counts else (i, n) :: countOnce id counts

/-- How many named documents have each identity, in the order in which the identities
    first occur. -/
def identityCounts (b : Bundle) : List (DocumentId × Nat) :=
  (b.documents.filter Document.isMaterialized).foldl (fun counts d => countOnce d.id counts) []

/-- The identities that more than one named document has, in the order in which
    they first occur. -/
def duplicates (b : Bundle) : List DocumentId :=
  (b.identityCounts.filter fun (_, n) => 1 < n).map Prod.fst

end Bundle

end ManifestBundle
