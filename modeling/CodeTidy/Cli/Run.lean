import CodeTidy.Backend.Builtin
import CodeTidy.Cli.Arguments
import CodeTidy.Cli.Help
import CodeTidy.Configuration.Discovery
import CodeTidy.Configuration.Reading
import CodeTidy.Detect.Page
import CodeTidy.Text.Utf8

/-!
# Running commands

A run reads its input and answers with an exit code and what it prints. The code is 0 if the input
was formatted or the question answered, 1 if the input could not be formatted and is printed as it
is or nothing was detected, and 2 if the run could not be carried out.

What lies around a run, its files and its standard input, is reached through `Surroundings`, in a
monad of the caller's choice. How long the input takes, and whether it can be read at all, is up to
the surroundings too.
-/

namespace CodeTidy.Cli

/-- Why a file or the standard input cannot be read. -/
inductive FileFault where
  | missing
  | isDirectory
  | notDirectory
  /-- The file is not UTF-8. -/
  | notText
  | other (message : String)
deriving DecidableEq

/-- The fault in words. -/
def FileFault.message : FileFault → String
  | .missing => "No such file or directory (os error 2)"
  | .isDirectory => "Is a directory (os error 21)"
  | .notDirectory => "Not a directory (os error 20)"
  | .notText => "stream did not contain valid UTF-8"
  | .other message => message

/-- How many seconds a run waits for its input. -/
def inputSeconds : Nat := 10

/-- What a run can reach. -/
structure Surroundings (m : Type → Type) [Monad m] where
  /-- The bytes of the file at a path, which is absolute or starts at the working directory. -/
  fileBytes : String → m (Except FileFault ByteArray)
  /-- The bytes of the standard input. -/
  inputBytes : m ByteArray
  /-- Why the standard input cannot be read to its end, if it cannot. -/
  inputFault : m (Option FileFault) := pure none
  /-- Is the input still not read to its end after `inputSeconds`? It comes from the file at the
  path, or else from the standard input. -/
  isLate : Option String → m Bool := fun _ => pure false
  /-- The working directory, if it is known. -/
  workingDirectory : m (Option Configuration.Directory)
  /-- Is there a file at the path? -/
  isFile : String → m Bool
  /-- Is there anything at the path? -/
  isThere : String → m Bool

/-- The end of a run. -/
structure Report where
  exit : Nat
  stdout : String := ""
  stderr : String := ""
deriving DecidableEq

/-- Why a run could not be carried out. -/
inductive Trouble where
  | unreadableConfig (path : String) (fault : FileFault)
  | rejectedConfig (path : String) (rejection : Configuration.Rejection)
  | unreadableFile (path : String) (fault : FileFault)
  /-- The standard input cannot be read to its end. -/
  | brokenInput (fault : FileFault)
  /-- The standard input is not UTF-8. -/
  | unreadableInput (fault : Text.Utf8Fault)
  /-- The input takes too long. -/
  | lateInput
  | settings (error : Overrides.BagError)

/-- The trouble in words. -/
def Trouble.message : Trouble → String
  | .unreadableConfig path fault =>
    "Failed to read config file " ++ path ++ ": " ++ fault.message ++ ": " ++ fault.message
  | .rejectedConfig path rejection => rejection.message path
  | .unreadableFile path fault => "Failed to read " ++ path ++ ": " ++ fault.message
  | .brokenInput fault => "Failed to read stdin: " ++ fault.message
  | .unreadableInput fault => "Failed to read stdin: " ++ fault.message
  | .lateInput =>
    "Timed out after " ++ toString inputSeconds ++ "s waiting for input: deadline has elapsed"
  | .settings error => "Invalid command line settings: " ++ error.message

/-- The end of a run in trouble. -/
def Report.ofTrouble (t : Trouble) : Report := ⟨2, "", "Error: " ++ t.message ++ "\n"⟩

variable {m : Type → Type} [Monad m]

/-- The path of a file in a directory. -/
def pathIn (d : Configuration.Directory) (name : String) : String :=
  String.join (d.reverse.map ("/" ++ ·)) ++ "/" ++ name

namespace Surroundings

/-- The text of a file. -/
def readText (s : Surroundings m) (path : String) : m (Except FileFault (List Char)) := do
  match ← s.fileBytes path with
  | .error fault => return .error fault
  | .ok bytes =>
    match Text.ofUtf8 bytes with
    | .ok text => return .ok text
    | .error _ => return .error .notText

/-- The configuration in a file. -/
def configurationAt (s : Surroundings m) (path : String) :
    m (Except Trouble Configuration) := do
  match ← s.readText path with
  | .error fault => return .error (.unreadableConfig path fault)
  | .ok text =>
    match Configuration.parse text with
    | .ok c => return .ok c
    | .error rejection => return .error (.rejectedConfig path rejection)

/-- The configuration of a run: that of the file given, or else of the nearest file, or else the
usual one. -/
def configuration (s : Surroundings m) (given : Option String) :
    m (Except Trouble Configuration) := do
  match given with
  | some path => s.configurationAt path
  | none =>
    match ← s.workingDirectory with
    | none => return .ok {}
    | some start =>
      let hasFile d := s.isFile (pathIn d Configuration.fileName)
      let isRepository d := s.isThere (pathIn d ".git")
      match ← Configuration.discover hasFile isRepository start with
      | none => return .ok {}
      | some d => s.configurationAt (pathIn d Configuration.fileName)

/-- The input of a run: a file, or the standard input without one, if it arrives in time. -/
def input (s : Surroundings m) (path : Option String) : m (Except Trouble String) := do
  if ← s.isLate path then return .error .lateInput
  match path with
  | some path =>
    match ← s.readText path with
    | .ok text => return .ok (String.ofList text)
    | .error fault => return .error (.unreadableFile path fault)
  | none =>
    match ← s.inputFault with
    | some fault => return .error (.brokenInput fault)
    | none =>
      match Text.ofUtf8 (← s.inputBytes) with
      | .ok text => return .ok (String.ofList text)
      | .error fault => return .error (.unreadableInput fault)

end Surroundings

/-- The name of the file at a path, which is empty if the path leads to no name. -/
def fileNameOf (path : Option String) : String :=
  let parts := Text.splitOn (· == '/') (path.getD "").toList
  match (parts.filter fun p => !p.isEmpty && p != ['.']).getLast? with
  | some name => if name == ['.', '.'] then "" else String.ofList name
  | none => ""

/-- The settings given on a command line, as a settings bag. -/
def FormatArguments.bag (a : FormatArguments) : Json :=
  .obj <| (match a.indent with
      | some indent => [("indentSize", .str indent)]
      | none => [])
    ++ (if a.singleQuote then [("singleQuote", .bool true)] else [])
    ++ (match a.lineWrap with
      | some width => [("lineWrap", .ofNat width)]
      | none => [])

/-- The service that a configuration asks for. No host for binary modules is attached. -/
def serviceOf (c : Configuration) : Service (Workbench Unit) where
  config := c.policy
  registry := .builtin .none Plugin.builtinLoader c.service.wasmBase

/-- The line on what a cache has counted. -/
def statsLine (s : Cache.Stats) : String :=
  "cache: " ++ toString s.hits ++ " hits, " ++ toString s.misses ++ " misses, "
    ++ toString s.writes ++ " writes, " ++ toString s.evictions ++ " evictions\n"

/-- Formats code that is known to be of a language. -/
def formatCode (c : Configuration) (stats : Bool) (user : Overrides) (language code : String) :
    Report :=
  let service := serviceOf c
  let (outcome, state) :=
    service.format Service.anonymous code language user (service.start { world := () })
  let counted := if stats then statsLine state.cache.stats else ""
  match outcome.failure with
  | none => ⟨0, outcome.code, counted⟩
  | some f =>
    ⟨1, outcome.code, counted ++ "Warning [" ++ f.kind.name ++ "]: " ++ f.message ++ "\n"⟩

/-- Formats the input. -/
def Report.ofFormat (a : FormatArguments) (c : Configuration) (code : String) : Report :=
  match Overrides.ofJson a.bag with
  | .error e => .ofTrouble (.settings e)
  | .ok given =>
    let user := c.settings.mergedWith given
    match a.language with
    | some language => formatCode c a.stats user language code
    | none =>
      match Detect.detectFile (fileNameOf a.path) code.toList with
      | some found => formatCode c a.stats user found.language code
      | none => ⟨1, code, "Warning: Could not detect the language; pass --language\n"⟩

/-- A JSON value as indented text of its own lines. -/
def jsonLines (v : Json) : String := String.ofList (Json.pretty [' ', ' '] 0 v ++ ['\n'])

/-- A text with blanks behind it, up to a width. -/
def padRight (width : Nat) (s : String) : String :=
  s ++ String.ofList (List.replicate (width - s.length) ' ')

/-- A text with blanks in front of it, up to a width. -/
def padLeft (width : Nat) (s : String) : String :=
  String.ofList (List.replicate (width - s.length) ' ') ++ s

/-- The line on the evidence for a language. -/
def scoreLine (d : Detect.Detection) : String :=
  (if d.isCandidate then "* " else "  ") ++ padRight 12 d.language ++ " score "
    ++ padLeft 3 (toString d.score) ++ "  patterns " ++ toString d.patterns ++ "\n"

/-- Answers whether a page is code. -/
def Report.ofPage (a : DetectArguments) (text : String) : Report :=
  let v := Detect.classify ⟨a.url.getD "", a.contentType, text.toList, !a.rich⟩
  let shown :=
    if a.json then jsonLines v.toJson
    else v.language.getD "not code" ++ " (" ++ v.reason.title ++ ")\n"
  ⟨if v.isCode then 0 else 1, shown, ""⟩

/-- Answers of which language the input is. -/
def Report.ofDetect (a : DetectArguments) (text : String) : Report :=
  if a.url.isSome || a.contentType.isSome then .ofPage a text
  else
    let found := Detect.detectFile (fileNameOf a.path) text.toList
    let json := match found with
      | some d => d.toJson
      | none => .null
    let shown :=
      if a.scores then
        let scores := Detect.scores text.toList
        if a.json then jsonLines (.arr (scores.map Detect.Detection.toJson))
        else String.join (scores.map scoreLine)
      else if a.json then jsonLines json
      else ((found.map (·.language)).getD "unknown") ++ "\n"
    ⟨if found.isSome then 0 else 1, shown, ""⟩

/-- Lists the languages with their backends. -/
def Report.ofLanguages (json : Bool) (c : Configuration) : Report :=
  let registry := (serviceOf c).registry
  let bench : Workbench Unit := { world := () }
  let rows := registry.languages.filterMap fun language =>
    (registry.backend? language).map fun b => (language, b.profile, b.isAvailable bench)
  if json then
    let row := fun (language, (profile : Profile), available) =>
      Json.obj [("language", .str language), ("backend", profile.toJson),
        ("available", .bool available)]
    ⟨0, jsonLines (.arr (rows.map row)), ""⟩
  else
    let line := fun (language, (profile : Profile), (available : Bool)) =>
      padRight 12 language ++ " " ++ profile.name
        ++ (if available then "" else " (unavailable)") ++ "\n"
    ⟨0, String.join (rows.map line), ""⟩

/-- The line on the version. -/
def versionLine : String := "codeview 0.1.0\n"

/-- Runs a command. -/
def Command.run (s : Surroundings m) (config : Option String) : Command → m Report
  | .version => pure ⟨0, versionLine, ""⟩
  | .detect a => do
    match ← s.input a.path with
    | .error t => return .ofTrouble t
    | .ok text => return .ofDetect a text
  | .format a => do
    match ← s.configuration config with
    | .error t => return .ofTrouble t
    | .ok c =>
      match ← s.input a.path with
      | .error t => return .ofTrouble t
      | .ok code => return .ofFormat a c code
  | .languages json => do
    match ← s.configuration config with
    | .error t => return .ofTrouble t
    | .ok c => return .ofLanguages json c

/-- Carries out a command line. A line that does not follow the grammar has no report. -/
def run? (s : Surroundings m) (args : List String) : m (Option Report) := do
  match Task.ofArguments? args with
  | none => return none
  | some .showVersion => return some ⟨0, versionLine, ""⟩
  | some (.showHelp command) => return some ⟨0, helpText command, ""⟩
  | some (.run config command) => return some (← command.run s config)

end CodeTidy.Cli
