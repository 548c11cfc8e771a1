import CodeTidy.Text.Blank

/-!
# Arguments

A command line names a command and gives it options and at most one path. Options are written
`--name value`, `--name=value` or, by their letter, `-x value`, `-xvalue` and `-x=value`; the
letters of switches may be run together. An option may be given once. Behind `--` everything is a
path.
-/

namespace CodeTidy.Cli

/-- What an option takes. -/
inductive Argument where
  /-- Nothing: the option is a switch. -/
  | nothing
  /-- A text, which may be empty. -/
  | text
  /-- A path, which may not. -/
  | path
  /-- A number below `2 ^ 64`. -/
  | number
  /-- Nothing, and the help is shown instead of running the command. -/
  | help
  /-- Nothing, and the version is shown instead of running the command. -/
  | version
deriving DecidableEq

/-- An option. -/
structure Switch where
  name : String
  letter : Option Char := none
  takes : Argument := .nothing
deriving DecidableEq

/-- What a command line may hold. -/
structure Grammar where
  switches : List Switch
  takesPath : Bool := false
  commands : List String := []

/-- Why a command line is not run as it stands. -/
inductive Stop where
  /-- It does not follow the grammar. -/
  | misuse
  | help
  | version
deriving DecidableEq

/-- What has been read of a command line: the options in the order given, each with its value, and
the path. -/
structure Given where
  options : List (String × String) := []
  path : Option String := none
deriving DecidableEq

namespace Given

/-- The value of an option. -/
def value? (g : Given) (name : String) : Option String := g.options.lookup name

/-- Has an option been given? -/
def has (g : Given) (name : String) : Bool := (g.value? name).isSome

end Given

/-- The number below `2 ^ 64` that a text denotes, with or without a plus sign. -/
def number? (s : String) : Option Nat :=
  let ds := match s.toList with
    | '+' :: rest => rest
    | rest => rest
  if ds.isEmpty || !ds.all Text.isAsciiDigit then none
  else
    let n := ds.foldl (fun n d => 10 * n + (d.toNat - '0'.toNat)) 0
    if n < 0x10000000000000000 then some n else none

/-- May the option have this value? -/
def Switch.admits (s : Switch) (value : String) : Bool :=
  match s.takes with
  | .path => !value.isEmpty
  | .number => (number? value).isSome
  | _ => true

/-- Records an option with its value. -/
def Given.add (g : Given) (s : Switch) (value : String) : Except Stop Given :=
  if g.has s.name || !s.admits value then .error .misuse
  else .ok { g with options := g.options ++ [(s.name, value)] }

/-- What is being read: what has been read so far, the option that still lacks its value, and
whether only a path may follow. -/
structure Reading where
  given : Given := {}
  pending : Option Switch := none
  onlyPath : Bool := false

/-- Records an option that takes nothing. -/
def Reading.switchOn (r : Reading) (s : Switch) : Except Stop Reading :=
  match s.takes with
  | .help => .error .help
  | .version => .error .version
  | _ => do return { r with given := ← r.given.add s "" }

/-- Does the option take a value? -/
def Switch.takesValue (s : Switch) : Bool :=
  s.takes == .text || s.takes == .path || s.takes == .number

/-- Reads an option by its name. -/
def Reading.long (g : Grammar) (r : Reading) (body : List Char) : Except Stop Reading :=
  let name := body.takeWhile (· != '=')
  let tail := body.drop name.length
  match g.switches.find? (·.name == String.ofList name) with
  | none => .error .misuse
  | some s =>
    match s.takesValue, tail with
    | true, [] => .ok { r with pending := some s }
    | true, _ :: value => do return { r with given := ← r.given.add s (String.ofList value) }
    | false, [] => r.switchOn s
    | false, _ :: _ => .error .misuse

/-- Reads options by their letters. -/
def Reading.short (g : Grammar) (r : Reading) : List Char → Except Stop Reading
  | [] => .ok r
  | c :: rest =>
    match g.switches.find? (·.letter == some c) with
    | none => .error .misuse
    | some s =>
      if s.takesValue then
        match rest with
        | [] => .ok { r with pending := some s }
        | '=' :: value => do return { r with given := ← r.given.add s (String.ofList value) }
        | value => do return { r with given := ← r.given.add s (String.ofList value) }
      else
        match r.switchOn s with
        | .error e => .error e
        | .ok r => r.short g rest

/-- Records a path. -/
def Reading.addPath (g : Grammar) (r : Reading) (path : String) : Except Stop Reading :=
  if !g.takesPath || r.given.path.isSome || path.isEmpty then .error .misuse
  else .ok { r with given := { r.given with path := some path } }

/-- Reads arguments up to a command. The command comes with the arguments behind it. -/
def read (g : Grammar) (r : Reading) :
    List String → Except Stop (Given × Option (String × List String))
  | [] => if r.pending.isSome then .error .misuse else .ok (r.given, none)
  | arg :: args =>
    let continue? (next : Except Stop Reading) :=
      match next with
      | .error e => .error e
      | .ok r => read g r args
    if r.onlyPath then continue? (r.addPath g arg)
    else
      match r.pending, arg.toList with
      | none, ['-', '-'] => continue? (.ok { r with onlyPath := true })
      | none, '-' :: '-' :: body => continue? (r.long g body)
      | none, '-' :: c :: body => continue? (r.short g (c :: body))
      | some _, '-' :: _ :: _ => .error .misuse
      | some s, _ =>
        continue? (do return { r with given := ← r.given.add s arg, pending := none })
      | none, _ =>
        if g.commands.contains arg then .ok (r.given, some (arg, args))
        else continue? (r.addPath g arg)

/-! ## The commands -/

/-- What the command that formats is asked for. -/
structure FormatArguments where
  path : Option String := none
  language : Option String := none
  indent : Option String := none
  singleQuote : Bool := false
  lineWrap : Option Nat := none
  stats : Bool := false
deriving DecidableEq

/-- What the command that detects is asked for. -/
structure DetectArguments where
  path : Option String := none
  url : Option String := none
  contentType : Option String := none
  rich : Bool := false
  scores : Bool := false
  json : Bool := false
deriving DecidableEq

/-- A command with its arguments. -/
inductive Command where
  | format (arguments : FormatArguments)
  | detect (arguments : DetectArguments)
  | languages (json : Bool)
  | version
deriving DecidableEq

/-- What to do: a command under a configuration, or a text to show. -/
inductive Task where
  | run (config : Option String) (command : Command)
  /-- Shows the help on a command, or on all of them. -/
  | showHelp (command : Option String)
  | showVersion
deriving DecidableEq

/-- The options of every command. -/
def globalSwitches : List Switch :=
  [⟨"config", some 'c', .path⟩, ⟨"verbose", some 'v', .nothing⟩, ⟨"help", some 'h', .help⟩]

/-- The commands. -/
def commandNames : List String := ["format", "detect", "languages", "version"]

/-- The grammar of a command line up to its command. -/
def topGrammar : Grammar where
  switches := globalSwitches ++ [⟨"version", some 'V', .version⟩]
  commands := commandNames ++ ["help"]

/-- The grammar behind a command. -/
def grammarOf (command : String) : Grammar :=
  match command with
  | "format" =>
    { takesPath := true
      switches := globalSwitches ++ [⟨"language", some 'l', .text⟩, ⟨"indent", none, .text⟩,
        ⟨"single-quote", none, .nothing⟩, ⟨"line-wrap", none, .number⟩,
        ⟨"stats", none, .nothing⟩] }
  | "detect" =>
    { takesPath := true
      switches := globalSwitches ++ [⟨"url", none, .text⟩, ⟨"content-type", none, .text⟩,
        ⟨"rich", none, .nothing⟩, ⟨"scores", none, .nothing⟩, ⟨"json", none, .nothing⟩] }
  | "languages" => { switches := globalSwitches ++ [⟨"json", none, .nothing⟩] }
  | _ => { switches := globalSwitches }

/-- The command of a name with its arguments. -/
def commandOf (name : String) (g : Given) : Command :=
  match name with
  | "format" =>
    .format {
      path := g.path
      language := g.value? "language"
      indent := g.value? "indent"
      singleQuote := g.has "single-quote"
      lineWrap := (g.value? "line-wrap").bind number?
      stats := g.has "stats" }
  | "detect" =>
    .detect {
      path := g.path
      url := g.value? "url"
      contentType := g.value? "content-type"
      rich := g.has "rich"
      scores := g.has "scores"
      json := g.has "json" }
  | "languages" => .languages (g.has "json")
  | _ => .version

/-- The help that is asked for as a command of its own. -/
def helpOn : List String → Except Stop Task
  | [] => .ok (.showHelp none)
  | ["help"] => .ok (.showHelp none)
  | [name] => if commandNames.contains name then .ok (.showHelp (some name)) else .error .misuse
  | _ => .error .misuse

/-- The task that a command line sets, or nothing if it does not follow the grammar. A
configuration given behind the command wins over one in front of it. -/
def Task.ofArguments? (args : List String) : Option Task :=
  match read topGrammar {} args with
  | .error .misuse => none
  | .error .help => some (.showHelp none)
  | .error .version => some .showVersion
  | .ok (_, none) => none
  | .ok (_, some ("help", rest)) => (helpOn rest).toOption
  | .ok (top, some (name, rest)) =>
    match read (grammarOf name) {} rest with
    | .error .help => some (.showHelp (some name))
    | .error _ => none
    | .ok (g, _) =>
      some (.run (g.value? "config" <|> top.value? "config") (commandOf name g))

end CodeTidy.Cli
