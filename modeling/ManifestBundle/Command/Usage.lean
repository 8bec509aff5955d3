import ManifestBundle.Command.Basic
import ManifestBundle.Text.Digit

/-!
# Reading a command line

A command line is the name of a command and its parameters, in front of which there
may be parameters for every command. A parameter with a value takes it from the same
argument, behind an equals sign, or from the next one; short names of parameters
without values can share an argument. Other arguments are paths, and behind two
hyphens all arguments are.

Arguments are taken from the left, and the first that cannot be is reported. A value
in an argument of its own is looked at when the next parameter or path has been
found, so a name behind it that is not known is reported instead of it.
-/

namespace ManifestBundle

/-- Why no command is run. -/
inductive UsageError where
  /-- The argument names no parameter. -/
  | unknownArgument
  /-- The value of a parameter is missing, or is empty where it must not be. -/
  | missingValue
  /-- A parameter is given again, or beside one that excludes it. -/
  | conflict
  /-- The value of a parameter is none that it can have. -/
  | invalidValue
  /-- A parameter without a value is given one. -/
  | unexpectedValue
  /-- The argument names no command. -/
  | unknownCommand
  /-- There are parameters but no command. -/
  | missingCommand
  /-- There are no arguments. -/
  | noArguments
  /-- Help is asked for. -/
  | helpWanted
  /-- The version is asked for. -/
  | versionWanted
deriving DecidableEq, Repr

/-- The exit code of the program. -/
def UsageError.exitCode : UsageError → Nat
  | .helpWanted | .versionWanted => 0
  | _ => 2

namespace Usage

/-! ## Parameters -/

/-- What a command line may give. -/
inductive Parameter where
  | config
  | verbose
  | help
  | version
  | apiVersion
  | group
  | kind
  | name
  | namespaceName
  | labels
  | annotations
  | exact
  | index
  | path
  | output
  | collect
  /-- The arguments that belong to no parameter with a name. -/
  | paths
deriving DecidableEq, Repr

/-- How a parameter is given. -/
inductive Form where
  /-- Once, without a value. -/
  | flag
  /-- As often as is wanted, without a value. -/
  | count
  /-- Once, with a value. -/
  | single
  /-- As often as is wanted, with a value each time. -/
  | repeated
  /-- In place of a command. -/
  | request (answer : UsageError)
deriving DecidableEq, Repr

/-- A value goes with the parameter. -/
def Form.takesValue : Form → Bool
  | .single | .repeated => true
  | _ => false

namespace Parameter

/-- How the parameter is given. -/
def form : Parameter → Form
  | .verbose => .count
  | .help => .request .helpWanted
  | .version => .request .versionWanted
  | .labels | .annotations | .paths => .repeated
  | .exact | .collect => .flag
  | _ => .single

/-- The name behind two hyphens. -/
def long? : Parameter → Option String
  | .config => some "config"
  | .verbose => some "verbose"
  | .help => some "help"
  | .version => some "version"
  | .apiVersion => some "api-version"
  | .group => some "group"
  | .kind => some "kind"
  | .name => some "name"
  | .namespaceName => some "namespace"
  | .labels => some "labels"
  | .annotations => some "annotations"
  | .exact => some "exact"
  | .index => some "index"
  | .path => some "path"
  | .output => some "output"
  | .collect => some "collect"
  | .paths => none

/-- The letter behind one hyphen. -/
def short? : Parameter → Option Char
  | .config => some 'c'
  | .verbose => some 'v'
  | .help => some 'h'
  | .version => some 'V'
  | .kind => some 'k'
  | .name => some 'n'
  | .labels => some 'l'
  | .annotations => some 'a'
  | .path => some 'p'
  | .output => some 'o'
  | _ => none

end Parameter

/-- Where an argument stands: in front of the command, or behind it. -/
inductive Scope where
  | program
  | list
  | get
  | validate
deriving DecidableEq, Repr

namespace Scope

/-- The parameters of criteria. -/
def criteria : List Parameter :=
  [.apiVersion, .group, .kind, .name, .namespaceName, .labels, .annotations, .exact]

/-- The parameters with names that can be given. -/
def parameters : Scope → List Parameter
  | .program => [.config, .verbose, .help, .version]
  | .list => [.config, .verbose, .help] ++ criteria
  | .get => [.config, .verbose, .help, .index, .path, .output] ++ criteria
  | .validate => [.config, .verbose, .help, .collect]

/-- The command of a name. -/
def ofName? (name : String) : Option Scope :=
  if name = "list" then some .list
  else if name = "get" then some .get
  else if name = "validate" then some .validate
  else none

end Scope

/-- The word that asks for help on a command. -/
def helpWord : String :=
  "help"

/-! ## Values -/

/-- A position among documents: decimal digits, perhaps behind a plus sign, of a number
    below 2 ^ 64. -/
def index? (text : String) : Option Nat :=
  let ds := match text.toList with
    | '+' :: ds => ds
    | ds => ds
  if ds.isEmpty || !ds.all Text.isDigit then none
  else
    let n := Nat.ofDigitChars 10 ds 0
    if n < UInt64.size then some n else none

/-- What is wrong with a value of a parameter. -/
def Parameter.fault? (p : Parameter) (value : String) : Option UsageError :=
  match p with
  | .config | .paths => if value = "" then some .missingValue else none
  | .index => if (index? value).isNone then some .invalidValue else none
  | .output =>
    match OutputFormat.parse value with
    | .ok _ => none
    | .error _ => some .invalidValue
  | _ => none

/-! ## What has been given -/

/-- What has been given in one scope so far. -/
structure Given where
  /-- The parameters in order, each with its value. -/
  entries : List (Parameter × String) := []
  /-- A parameter that has not been taken in yet, with its values so far. -/
  pending : Option (Parameter × List String) := none

namespace Given

/-- The parameter has been taken in. -/
def has (g : Given) (p : Parameter) : Bool :=
  g.entries.any fun (q, _) => q = p

/-- The value of a parameter. -/
def value? (g : Given) (p : Parameter) : Option String :=
  g.entries.lookup p

/-- The values of a parameter, in order. -/
def values (g : Given) (p : Parameter) : List String :=
  (g.entries.filter fun (q, _) => q = p).map Prod.snd

/-- Takes in a parameter with its values. -/
def accept (g : Given) (p : Parameter) (values : List String) : Except UsageError Given :=
  match p.form with
  | .request answer => .error answer
  | .count => .ok { g with entries := g.entries ++ [(p, "")] }
  | .flag => if g.has p then .error .conflict else .ok { g with entries := g.entries ++ [(p, "")] }
  | .single | .repeated =>
    if p.form = .single && g.has p then .error .conflict
    else match values.findSome? p.fault? with
      | some fault => .error fault
      | none => .ok { g with entries := g.entries ++ values.map fun v => (p, v) }

/-- Takes in the parameter that has not been yet. -/
def settle (g : Given) : Except UsageError Given :=
  match g.pending with
  | none => .ok g
  | some (_, []) => .error .missingValue
  | some (p, values) => { g with pending := none }.accept p values

/-- Takes in a parameter, after the one before it. -/
def give (g : Given) (p : Parameter) (values : List String) : Except UsageError Given := do
  (← g.settle).accept p values

/-- Takes note of a parameter whose value is to come. -/
def await (g : Given) (p : Parameter) : Except UsageError Given := do
  return { ← g.settle with pending := some (p, []) }

/-- The parameter whose value is to come. -/
def awaited? (g : Given) : Option Parameter :=
  match g.pending with
  | some (p, []) => some p
  | _ => none

/-- Takes in a path; paths that follow each other are taken in together. -/
def addPath (g : Given) (path : String) : Except UsageError Given :=
  match g.pending with
  | some (.paths, values) => .ok { g with pending := some (.paths, values ++ [path]) }
  | _ => do return { ← g.settle with pending := some (.paths, [path]) }

end Given

/-! ## Arguments -/

/-- The parameter of a long name. -/
def Scope.long? (s : Scope) (name : List Char) : Option Parameter :=
  s.parameters.find? fun p => p.long?.map String.toList = some name

/-- The parameter of a short name. -/
def Scope.short? (s : Scope) (letter : Char) : Option Parameter :=
  s.parameters.find? fun p => p.short? = some letter

/-- Takes in a parameter by its long name, perhaps with a value. -/
def readLong (s : Scope) (g : Given) (text : List Char) : Except UsageError Given :=
  let (name, value?) := match Text.cutFirst? '=' text with
    | some (name, value) => (name, some (String.ofList value))
    | none => (text, none)
  match s.long? name with
  | none => .error .unknownArgument
  | some p =>
    match value? with
    | some v => if p.form.takesValue then g.give p [v] else .error .unexpectedValue
    | none => if p.form.takesValue then g.await p else g.give p []

/-- Takes in parameters by their short names, the last perhaps with a value. -/
def readShort (s : Scope) (g : Given) : List Char → Except UsageError Given
  | [] => .ok g
  | c :: cs =>
    match s.short? c with
    | none => .error .unknownArgument
    | some p =>
      if p.form.takesValue then
        match cs with
        | [] => g.await p
        | '=' :: value => g.give p [String.ofList value]
        | value => g.give p [String.ofList value]
      else do readShort s (← g.give p []) cs

/-- What an argument looks like. -/
inductive Shape where
  /-- Two hyphens, behind which all arguments are paths. -/
  | escape
  | long (text : List Char)
  | short (letters : List Char)
  | word

/-- The shape of an argument. A hyphen alone is a word. -/
def Shape.of (argument : String) : Shape :=
  match argument.toList with
  | ['-', '-'] => .escape
  | '-' :: '-' :: text => .long text
  | '-' :: c :: cs => .short (c :: cs)
  | _ => .word

/-- Takes in a word, or any argument behind two hyphens. -/
def readWord (s : Scope) (escaped : Bool) (g : Given) (argument : String) :
    Except UsageError Given :=
  match if escaped then none else g.awaited? with
  | some p => .ok { g with pending := some (p, [argument]) }
  | none =>
    if s = .program then
      -- A command is not named behind two hyphens; that it is one is still seen.
      if escaped && (argument = helpWord || (Scope.ofName? argument).isSome) then
        .error .unknownArgument
      else .error .unknownCommand
    else g.addPath argument

/-- Takes in an argument. -/
def readArgument (s : Scope) (escaped : Bool) (g : Given) (argument : String) :
    Except UsageError Given :=
  if escaped then readWord s escaped g argument
  else match Shape.of argument with
    | .long text => readLong s g text
    | .short letters => readShort s g letters
    | .escape | .word => readWord s escaped g argument

/-! ## Command lines -/

/-- The arguments up to the name of a command, if there is one; gives what they give,
    the command, and the arguments behind it. -/
def readProgram (escaped : Bool) (g : Given) :
    List String → Except UsageError (Given × Option (Scope × List String))
  | [] => .ok (g, none)
  | argument :: rest =>
    let named := !escaped && g.awaited?.isNone
    if named && argument = helpWord then
      match rest with
      | [] => .error .helpWanted
      | [word] =>
        if word = helpWord || (Scope.ofName? word).isSome then .error .helpWanted
        else .error .unknownCommand
      | _ => .error .unknownCommand
    else match if named then Scope.ofName? argument else none with
      | some s => .ok (g, some (s, rest))
      | none =>
        if !escaped && argument = "--" then readProgram true g rest
        else do readProgram escaped (← readArgument .program escaped g argument) rest

/-- The arguments of a command. -/
def readCommand (s : Scope) (escaped : Bool) (g : Given) : List String → Except UsageError Given
  | [] => .ok g
  | argument :: rest =>
    if !escaped && argument = "--" then readCommand s true g rest
    else do readCommand s escaped (← readArgument s escaped g argument) rest

/-- The criteria that have been given. -/
def Given.criteria (g : Given) : Criteria where
  apiVersion := g.value? .apiVersion
  group := g.value? .group
  kind := g.value? .kind
  name := g.value? .name
  namespaceName := g.value? .namespaceName
  labels := g.values .labels
  annotations := g.values .annotations
  exact := g.has .exact

/-- The command that has been given. -/
def Given.command (g : Given) : Scope → Command
  | .get =>
    .get g.criteria ((g.value? .index).bind index?) (g.value? .path)
      ((g.value? .output).bind fun text => (OutputFormat.parse text).toOption) (g.values .paths)
  | .validate => .validate (g.has .collect) (g.values .paths)
  | .list | .program => .list g.criteria (g.values .paths)

/-- The most that is counted of a parameter. -/
def maxCount : Nat :=
  255

/-- The parameters for every command count behind the command, if they are given there,
    and in front of it otherwise. -/
def invocation (before behind : Given) (s : Scope) : Invocation where
  config := (behind.value? .config).or (before.value? .config)
  verbosity :=
    let counted := if behind.has .verbose then behind else before
    min maxCount (counted.values .verbose).length
  command := behind.command s

end Usage

open Usage in
/-- The invocation that a command line spells. -/
def Invocation.parse (arguments : List String) : Except UsageError Invocation := do
  let (before, command) ← readProgram false {} arguments
  match command with
  | none => throw (if (← before.settle).entries.isEmpty then .noArguments else .missingCommand)
  | some (s, rest) =>
    let behind ← (← readCommand s false {} rest).settle
    if behind.has .apiVersion && behind.has .group then throw .conflict
    return invocation (← before.settle) behind s

end ManifestBundle
