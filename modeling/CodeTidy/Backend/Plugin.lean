import CodeTidy.Backend.Basic
import CodeTidy.Json.Printer
import CodeTidy.Json.Reader
import CodeTidy.Memo.Basic
import CodeTidy.Sql.Layout
import CodeTidy.Yaml.Layout

/-!
# Plugins

A plugin formats code of some languages. Plugins come from a loader and are loaded when a language
first needs them, each once.
-/

namespace CodeTidy

/-- A plugin that has been loaded. -/
structure Plugin where
  name : String
  supports : String → Bool
  format : Request → Except Failure String

/-- Loads the plugin of a name, in a world of type `ω`. -/
abbrev Plugin.Loader (ω : Type) := String → Initializer ω Failure Plugin

namespace Plugin

/-- The JSON plugin, which rejects what is not JSON and keeps the order of keys. -/
def json : Plugin where
  name := "json"
  supports := (· == "json")
  format r :=
    match Json.parse r.code.toList with
    | .ok value => .ok (String.ofList (Json.pretty r.settings.indentUnit 0 value ++ ['\n']))
    | .error fault => .error (.json fault)

/-- The YAML plugin, which rejects code with comments because it would lose them. -/
def yaml : Plugin where
  name := "yaml"
  supports := (· == "yaml")
  format r :=
    match Yaml.tidy r.code.toList with
    | .ok text => .ok (String.ofList text)
    | .error .commented => .error .commentedYaml
    | .error .invalid => .error .invalidYaml
    | .error .unwritable => .error .unwritableYaml

/-- The SQL plugin. -/
def sql : Plugin where
  name := "sql"
  supports := (· == "sql")
  format r :=
    match Sql.tidy r.settings r.code.toList with
    | .ok text => .ok (String.ofList text)
    | .error fault => .error (.sql fault)

/-- The plugins that are always at hand. -/
def builtin : List Plugin := [json, yaml, sql]

/-- Loads one of the plugins at hand. -/
def builtinLoader {ω : Type} : Loader ω := fun id world =>
  match builtin.find? (·.name == id) with
  | some p => (.ok p, world)
  | none => (.error (.unknownPlugin id), world)

/-- The languages that plugins format, each with the names of the plugins that it needs. -/
def table : List (String × List String) :=
  [("json", ["json"]), ("yaml", ["yaml"]), ("sql", ["sql"])]

/-- The names of the plugins that a language needs, if plugins format it at all. -/
def neededFor? (language : String) : Option (List String) := table.lookup language

variable {ω : Type}

/-- Obtains the plugins of some names, and stops at the first that cannot be loaded. -/
def obtainAll (loader : Loader ω) :
    List String → Memo String Plugin → ω → Except Failure (List Plugin) × Memo String Plugin × ω
  | [], memo, world => (.ok [], memo, world)
  | id :: ids, memo, world =>
    match memo.obtain id (loader id) world with
    | (.error f, memo, world) => (.error f, memo, world)
    | (.ok p, memo, world) =>
      match obtainAll loader ids memo world with
      | (.ok ps, memo, world) => (.ok (p :: ps), memo, world)
      | (.error f, memo, world) => (.error f, memo, world)

/-- Formats code with the first plugin loaded for its language that supports it. A language
without plugins never reaches the loader. -/
def formatWith (loader : Loader ω) (r : Request) (memo : Memo String Plugin) (world : ω) :
    Except Failure String × Memo String Plugin × ω :=
  match neededFor? r.language with
  | none => (.error (.unsupported r.language), memo, world)
  | some ids =>
    match obtainAll loader ids memo world with
    | (.error f, memo, world) => (.error f, memo, world)
    | (.ok plugins, memo, world) =>
      match plugins.find? (·.supports r.language) with
      | some p => (p.format r, memo, world)
      | none => (.error (.noPlugin r.language), memo, world)

end Plugin

end CodeTidy
