import ManifestBundle.Bundle
import ManifestBundle.Document.Stream
import ManifestBundle.Files.Walk
import ManifestBundle.Gzip.Member

/-!
# Sources of manifests

Manifests come from files, from standard input, or from memory. A file is compressed
if its name ends in `gz`, standard input if it starts as compressed files do.
Standard input can be read once: after that it is at its end, and its rest is empty.

Sources are read in order, up to the first that cannot be read or parsed
(`Source.loadAll`). The paths of a command line stand for sources: a hyphen for
standard input, a directory for the manifest files below it, and no path at all for
standard input again (`Source.ofPaths`). Texts in memory can be loaded without any of
this (`MemoryText.loadAll`).
-/

namespace ManifestBundle

/-- Where manifests come from. -/
inductive Source where
  | file (path : String)
  | standardInput
  | memory (name text : String)
deriving DecidableEq, Repr

/-! ## What can go wrong -/

/-- Why a source cannot be read. -/
inductive SourceError where
  /-- There is no file of text at the path. -/
  | unreadable (path : String)
  /-- There is no file at the path of a compressed file. -/
  | unopenable (path : String)
  /-- The file at the path is not a text that has been compressed. -/
  | corrupted (path : String)
  /-- Standard input is not a text that has been compressed. -/
  | corruptedInput
  /-- Standard input is no text. -/
  | inputNotText
deriving DecidableEq, Repr

/-- The wording for octets that are not a text that has been compressed. -/
def SourceError.corruptedMessage : String :=
  "Failed to decompress gzip data (file may be corrupted or not UTF-8)"

/-- The wording of an error. -/
def SourceError.message : SourceError → String
  | .unreadable path => s!"Failed to read file {path}"
  | .unopenable path => s!"Failed to open gzipped file {path}"
  | .corrupted path => s!"Failed to decompress {path}: {corruptedMessage}"
  | .corruptedInput => corruptedMessage
  | .inputNotText => "Invalid UTF-8 in manifest input"

/-- Why manifests cannot be loaded. -/
inductive LoadError where
  | source (cause : SourceError)
  /-- The text of the named source is no stream of documents. -/
  | unparsed (name : String) (cause : StreamError)
  /-- A directory cannot be walked. -/
  | unwalked (directory : String)
deriving DecidableEq

/-- The wording of an error. -/
def LoadError.message : LoadError → String
  | .source cause => cause.message
  | .unparsed name cause => s!"Failed to parse {name}: {cause.message}"
  | .unwalked directory => s!"Failed to walk {directory}"

/-! ## Reading a source -/

/-- The text that octets encode. -/
def decodeText? (os : List UInt8) : Option String :=
  String.fromUTF8? ⟨os.toArray⟩

/-- The text in a compressed file. -/
def decompressText? (os : List UInt8) : Option String :=
  (Gzip.content? os).bind decodeText?

namespace Source

/-- The name of a source in messages. -/
def name : Source → String
  | .file path => path
  | .standardInput => "<stdin>"
  | .memory name _ => name

/-- A file with this path is compressed. -/
def isGzipPath (path : String) : Bool :=
  Path.extension? path = some ['g', 'z']

/-- The text of the file at a path. -/
def fileText (files : FileTree) (path : String) : Except SourceError String :=
  if isGzipPath path then
    match files.read? path with
    | none => .error (.unopenable path)
    | some os =>
      match decompressText? os with
      | some text => .ok text
      | none => .error (.corrupted path)
  else
    match (files.read? path).bind decodeText? with
    | some text => .ok text
    | none => .error (.unreadable path)

/-- The text of standard input. -/
def inputText (input : List UInt8) : Except SourceError String :=
  if Gzip.hasMagic input then
    match decompressText? input with
    | some text => .ok text
    | none => .error .corruptedInput
  else
    match decodeText? input with
    | some text => .ok text
    | none => .error .inputNotText

/-- The text of a source, and the rest of standard input. -/
def read (files : FileTree) (input : List UInt8) : Source → Except SourceError (String × List UInt8)
  | .file path => do return (← fileText files path, input)
  | .standardInput => do return (← inputText input, [])
  | .memory _ text => .ok (text, input)

/-- The documents of a source, and the rest of standard input. -/
def load (files : FileTree) (input : List UInt8) (s : Source) :
    Except LoadError (List Document × List UInt8) :=
  match s.read files input with
  | .error e => .error (.source e)
  | .ok (text, input) =>
    match Document.parseStream text with
    | .error e => .error (.unparsed s.name e)
    | .ok ds => .ok (ds, input)

/-! ## Several sources -/

/-- The documents of sources in order, and the rest of standard input. -/
def loadAll (files : FileTree) (input : List UInt8) :
    List Source → Except LoadError (List Document × List UInt8)
  | [] => .ok ([], input)
  | s :: ss => do
    let (ds, input) ← s.load files input
    let (es, input) ← loadAll files input ss
    return (ds ++ es, input)

/-- The sources that a path stands for. -/
def ofPath (files : FileTree) (withGzip : Bool) (path : String) : Except LoadError (List Source) :=
  if path = "-" then .ok [.standardInput]
  else if files.isDirectory path then
    match files.manifestFiles? path withGzip with
    | some paths => .ok (paths.map .file)
    | none => .error (.unwalked path)
  else .ok [.file path]

/-- The sources that the paths of a command line stand for. -/
def ofPaths (files : FileTree) (withGzip : Bool) (paths : List String) :
    Except LoadError (List Source) :=
  if paths.isEmpty then .ok [.standardInput]
  else do return (← paths.mapM (ofPath files withGzip)).flatten

end Source

/-! ## Texts in memory -/

/-- A text in memory, under the name that it has in messages. -/
structure MemoryText where
  name : String
  text : String
deriving DecidableEq, Repr

namespace MemoryText

/-- The text as one of several sources. -/
def source (m : MemoryText) : Source :=
  .memory m.name m.text

/-- The documents in the text. -/
def load (m : MemoryText) : Except LoadError (List Document) :=
  (Document.parseStream m.text).mapError (.unparsed m.name)

/-- The documents in texts in order. Neither files nor standard input are read. -/
def loadAll : List MemoryText → Except LoadError (List Document)
  | [] => .ok []
  | m :: ms => do return (← m.load) ++ (← loadAll ms)

end MemoryText

end ManifestBundle
