import ManifestBundle.Yaml.Token

/-!
# Events of a YAML stream

An event is the start or the end of a collection, a scalar or an alias. The events
of a document list its nodes in the order of the text, with the tags spelled out.

They are told from the tokens by what is expected: a stack of pieces of a document
that are still to come, of which the innermost is replaced by what the next token
shows it to consist of (`expand?`). A node that is left out is an empty plain scalar.

A stream whose tokens fit ends with `streamEnd`. At the first token that does not
fit, or where the tokens end before, the stream ends with an unreadable document
(`documentEvents`).
-/

namespace ManifestBundle.Yaml

/-- The anchor and the tag of a node. -/
structure Properties where
  anchor : Option (List Char) := none
  tag : Option Tag := none
deriving DecidableEq, Repr, Inhabited

/-- An event. -/
inductive Event where
  | alias (name : List Char)
  | scalar (properties : Properties) (text : List Char) (isPlain : Bool)
  | sequenceStart (properties : Properties)
  | sequenceEnd
  | mappingStart (properties : Properties)
  | mappingEnd
deriving DecidableEq, Repr, Inhabited

/-- The event of a node that is left out. -/
def Event.missing : Event :=
  .scalar {} [] true

/-! ## Tags and anchors -/

/-- What the handles of tags stand for. -/
abbrev Handles := List (List Char × Tag)

/-- The handles that need no directive. -/
def Handles.standard : Handles :=
  [(['!'], .ofText "!"), (['!', '!'], .ofText "tag:yaml.org,2002:")]

/-- The tag that a handle and a suffix stand for. -/
def Handles.tag? (handles : Handles) (handle : List Char) (suffix : Tag) : Option Tag :=
  if handle.isEmpty then some suffix
  else (handles.lookup handle).map fun start => ⟨start.octets ++ suffix.octets⟩

/-- The anchor and the tag in front of a node, in either order, and what follows. -/
def properties? (handles : Handles) (ts : List Token) : Option (Properties × List Token) :=
  match ts with
  | .anchor a :: .tag h s :: ts | .tag h s :: .anchor a :: ts =>
    (handles.tag? h s).map fun t => ({ anchor := some a, tag := some t }, ts)
  | .anchor a :: ts => some ({ anchor := some a }, ts)
  | .tag h s :: ts => (handles.tag? h s).map fun t => ({ tag := some t }, ts)
  | ts => some ({}, ts)

/-! ## What is expected -/

/-- A piece of a document that is still to come. -/
inductive Expected where
  /-- A node. It may be a block collection, or even a block sequence that is not
      indented. -/
  | node (block indentless : Bool)
  /-- The rest of a block sequence. -/
  | blockEntries
  /-- The rest of a block sequence that is not indented. -/
  | indentlessEntries
  /-- The rest of a block mapping, from the next key on. -/
  | blockKey
  /-- The rest of a block mapping, from the value on. -/
  | blockValue
  /-- The rest of a flow sequence. -/
  | flowEntries (first : Bool)
  /-- A single pair in a flow sequence, from its key on. -/
  | pairKey
  | pairValue
  | pairEnd
  /-- The rest of a flow mapping, from the next key on. -/
  | flowKey (first : Bool)
  | flowValue
  /-- The same behind a key without a colon. -/
  | flowNoValue
deriving DecidableEq, Repr

/-- What an expected piece turns out to be: its first events, the pieces still to
    come, and the tokens behind what has been read. -/
abbrev Expansion := List Event × List Expected × List Token

/-- A node, or an empty scalar in front of one of the tokens that end it. -/
def orMissing (ends : Token → Bool) (node : Expected) (then_ : List Expected)
    (ts : List Token) : Option Expansion :=
  match ts with
  | [] => none
  | t :: _ => if ends t then some ([.missing], then_, ts) else some ([], node :: then_, ts)

/-- The expansion of a node. -/
def expandNode? (handles : Handles) (block indentless : Bool) (ts : List Token) :
    Option Expansion :=
  match ts with
  | .alias name :: ts => some ([.alias name], [], ts)
  | _ => do
    let (p, ts) ← properties? handles ts
    match ts with
    | .scalar text isPlain :: ts =>
      let p := if p.tag = some (.ofText "!") then { p with tag := none } else p
      return ([.scalar p text isPlain], [], ts)
    | .flowSequenceStart :: ts => return ([.sequenceStart p], [.flowEntries true], ts)
    | .flowMappingStart :: ts => return ([.mappingStart p], [.flowKey true], ts)
    | t :: rest =>
      if indentless && t = .blockEntry then return ([.sequenceStart p], [.indentlessEntries], ts)
      else if block && t = .blockSequenceStart then
        return ([.sequenceStart p], [.blockEntries], rest)
      else if block && t = .blockMappingStart then return ([.mappingStart p], [.blockKey], rest)
      else if p = {} then none
      else return ([.scalar p [] true], [], ts)
    | [] => none

/-- The expansion of an entry of a flow sequence. -/
def expandFlowEntry? : List Token → Option Expansion
  | .flowSequenceEnd :: ts => some ([.sequenceEnd], [], ts)
  | .key :: ts => some ([.mappingStart {}], [.pairKey, .flowEntries false], ts)
  | ts => some ([], [.node false false, .flowEntries false], ts)

/-- The expansion of a key of a flow mapping. -/
def expandFlowKey? : List Token → Option Expansion
  | .flowMappingEnd :: ts => some ([.mappingEnd], [], ts)
  | .key :: ts =>
    orMissing (fun t => t = .value || t = .flowEntry || t = .flowMappingEnd)
      (.node false false) [.flowValue] ts
  | ts => some ([], [.node false false, .flowNoValue], ts)

/-- The expansion of an expected piece; `none` if the next token does not fit. -/
def expand? (handles : Handles) : Expected → List Token → Option Expansion
  | .node block indentless, ts => expandNode? handles block indentless ts
  | .blockEntries, ts =>
    match ts with
    | .blockEntry :: ts =>
      orMissing (fun t => t = .blockEntry || t = .blockEnd) (.node true false) [.blockEntries] ts
    | .blockEnd :: ts => some ([.sequenceEnd], [], ts)
    | _ => none
  | .indentlessEntries, ts =>
    match ts with
    | .blockEntry :: ts =>
      orMissing (fun t => t = .blockEntry || t = .key || t = .value || t = .blockEnd)
        (.node true false) [.indentlessEntries] ts
    | [] => none
    | ts => some ([.sequenceEnd], [], ts)
  | .blockKey, ts =>
    match ts with
    | .key :: ts =>
      orMissing (fun t => t = .key || t = .value || t = .blockEnd) (.node true true)
        [.blockValue] ts
    | .blockEnd :: ts => some ([.mappingEnd], [], ts)
    | _ => none
  | .blockValue, ts =>
    match ts with
    | .value :: ts =>
      orMissing (fun t => t = .key || t = .value || t = .blockEnd) (.node true true)
        [.blockKey] ts
    | [] => none
    | ts => some ([.missing], [.blockKey], ts)
  | .flowEntries first, ts =>
    match ts with
    | .flowSequenceEnd :: ts => some ([.sequenceEnd], [], ts)
    | .flowEntry :: rest => if first then expandFlowEntry? ts else expandFlowEntry? rest
    | ts => if first then expandFlowEntry? ts else none
  | .pairKey, ts =>
    match ts with
    | [] => none
    | t :: rest =>
      -- The token in the place of the key is used up, whichever it is.
      if t = .value || t = .flowEntry || t = .flowSequenceEnd then
        some ([.missing], [.pairValue], rest)
      else some ([], [.node false false, .pairValue], ts)
  | .pairValue, ts =>
    match ts with
    | .value :: ts =>
      orMissing (fun t => t = .flowEntry || t = .flowSequenceEnd) (.node false false)
        [.pairEnd] ts
    | [] => none
    | ts => some ([.missing], [.pairEnd], ts)
  | .pairEnd, ts => some ([.mappingEnd], [], ts)
  | .flowKey first, ts =>
    match ts with
    | .flowMappingEnd :: ts => some ([.mappingEnd], [], ts)
    | .flowEntry :: rest => if first then expandFlowKey? ts else expandFlowKey? rest
    | ts => if first then expandFlowKey? ts else none
  | .flowValue, ts =>
    match ts with
    | .value :: ts =>
      orMissing (fun t => t = .flowEntry || t = .flowMappingEnd) (.node false false)
        [.flowKey false] ts
    | [] => none
    | ts => some ([.missing], [.flowKey false], ts)
  | .flowNoValue, ts => some ([.missing], [.flowKey false], ts)

/-- The events of the expected pieces, and the tokens behind them. -/
def events? (handles : Handles) : Nat → List Expected → List Token →
    Option (List Event × List Token)
  | _, [], ts => some ([], ts)
  | 0, _ :: _, _ => none
  | fuel + 1, e :: es, ts => do
    let (now, pieces, ts) ← expand? handles e ts
    let (later, ts) ← events? handles fuel (pieces ++ es) ts
    return (now ++ later, ts)

/-! ## Documents -/

/-- The directives in front of a document. -/
structure Directives where
  /-- The version has been given. -/
  hasVersion : Bool := false
  handles : Handles := []

/-- Reads the directives in front of a document, each at most once. -/
def directives? : Directives → List Token → Option (Directives × List Token)
  | d, .version major minor :: ts =>
    if d.hasVersion || major ≠ 1 || !(minor = 1 || minor = 2) then none
    else directives? { d with hasVersion := true } ts
  | d, .tagHandle handle start :: ts =>
    if (d.handles.lookup handle).isSome then none
    else directives? { d with handles := d.handles ++ [(handle, start)] } ts
  | d, ts => some (d, ts)

/-- A token in front of which the content of a document is left out. -/
def endsContent : Token → Bool
  | .version .. | .tagHandle .. | .documentStart | .documentEnd | .streamEnd => true
  | _ => false

/-- The events of the content of a document, the tokens behind it and its end; the
    content must be there if the document starts without a mark. -/
def content? (handles : Handles) (isExplicit : Bool) (ts : List Token) :
    Option (List Event × List Token) := do
  let expected := Expected.node true false
  let (now, pieces, ts) ←
    if isExplicit then orMissing endsContent expected [] ts else some ([], [expected], ts)
  let (later, ts) ← events? handles (4 * ts.length + 8) pieces ts
  match ts with
  | [] => none
  | .documentEnd :: ts => return (now ++ later, ts)
  | ts => return (now ++ later, ts)

/-- The events of the document here and the tokens behind it. Only the first document
    of a stream may start without a mark. -/
def document? (isFirst : Bool) (ts : List Token) : Option (List Event × List Token) :=
  match ts with
  | [] => none
  | t :: _ =>
    if isFirst && !endsContent t || isFirst && t = .documentEnd then
      content? .standard false ts
    else do
      let (d, ts) ← directives? {} ts
      match ts with
      | .documentStart :: ts => content? (d.handles ++ .standard) true ts
      | _ => none

/-- The events of the documents from here on, document by document; `none` stands for
    one that is unreadable. -/
def documentEventsFrom : Nat → Bool → List Token → List (Option (List Event))
  | 0, _, _ => []
  | fuel + 1, isFirst, ts =>
    match if isFirst then ts else ts.dropWhile (· = .documentEnd) with
    | .streamEnd :: _ => []
    | ts =>
      match document? isFirst ts with
      | none => [none]
      | some (es, ts) => some es :: documentEventsFrom fuel false ts

/-- The events of a stream, document by document. -/
def documentEvents (ts : List Token) : List (Option (List Event)) :=
  documentEventsFrom (ts.length + 1) true ts

end ManifestBundle.Yaml
