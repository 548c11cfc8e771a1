import CodeTidy.Backend.Module
import CodeTidy.Backend.Plugin
import CodeTidy.Proofs.Backend.Supply
import CodeTidy.Settings.Resolve

/-!
# Plugins and modules are loaded lazily

The formatter with plugins has a memo of plugins, which it gets from a loader, and the formatters in
binary modules share a memo of modules, which a host sets up. Both are formatters of a supply, so
both load what a request needs when it is first needed, once each until this succeeds, and not again
after that. This holds whatever the loader or the host does and however the world changes in
between.
-/

namespace CodeTidy

variable {ω : Type}

/-! ## Plugins -/

namespace Plugin

/-- The loader with a record of what is asked of it. -/
def Loader.recorded (loader : Loader ω) : Loader (ω × SetUps String Failure Plugin) :=
  fun id => CodeTidy.recorded id (loader id)

/-- What the formatter with plugins does: a language that plugins format needs one plugin, which is
loaded under its name, and a plugin that does not support the language after all is of no use. -/
def supply (loader : Loader ω) : Supply Request String String Plugin Failure ω where
  key? r := (neededFor? r.language).bind List.head?
  name _ id := id
  setUp _ id := loader id
  refusal r := .unsupported r.language
  fault _ f := f
  use r p := if p.supports r.language then p.format r else .error (.noPlugin r.language)

/-- The languages that plugins format are JSON, YAML and SQL, each by the plugin of its name. -/
theorem neededFor?_eq_some_iff {language : String} {ids : List String} :
    neededFor? language = some ids ↔ language ∈ ["json", "yaml", "sql"] ∧ ids = [language] := by
  constructor
  · intro h
    have hentry : ∀ entry ∈ table, entry.1 ∈ ["json", "yaml", "sql"] ∧ entry.2 = [entry.1] := by
      decide
    exact hentry _ (Table.mem_of_lookup h)
  · rintro ⟨hlanguage, rfl⟩
    have hneeded : ∀ language ∈ ["json", "yaml", "sql"],
        neededFor? language = some [language] := by
      decide
    exact hneeded language hlanguage

/-- The formatter with plugins is the formatter of its supply. -/
theorem formatWith_eq (loader : Loader ω) : formatWith loader = (supply loader).format := by
  funext r memo world
  unfold formatWith Supply.format supply
  dsimp only
  cases hneeded : neededFor? r.language with
  | none => rfl
  | some ids =>
    obtain ⟨-, rfl⟩ := neededFor?_eq_some_iff.mp hneeded
    dsimp only [Option.bind_some, List.head?_cons, obtainAll]
    rcases memo.obtain r.language (loader r.language) world with ⟨e | p, memo', world'⟩
    · rfl
    · dsimp only
      cases hsupports : p.supports r.language <;> simp [List.find?, hsupports]

end Plugin

/-! ## Modules -/

/-- The host with a record of what it sets up. -/
def Host.recorded (host : Host ω) : Host (ω × SetUps Artifact String Module) where
  supportsModules := host.supportsModules
  setUp a := CodeTidy.recorded a (host.setUp a)

/-- A call of a formatter in a module whose files lie below `base`. -/
structure ModuleCall where
  formatter : ModuleFormatter
  base : String
  request : Request

namespace ModuleCall

/-- The formatters in modules that share a memo of modules, on one host. -/
def format (host : Host ω) : Formatter ModuleCall Artifact Module ω := fun call memo world =>
  call.formatter.formatWith host call.base call.request memo world

/-- What formatters in modules do: each needs the module of its two files, which is set up from the
places of the files, whatever the language is. No request is refused. -/
def supply (host : Host ω) : Supply ModuleCall Artifact Artifact Module String ω where
  key? call := some call.formatter.artifact
  name call a := a.under call.base
  setUp call a := host.setUp (a.under call.base)
  refusal call := .unsupported call.request.language
  fault call reason := .moduleSetup call.formatter.profile.name reason
  use call m :=
    match m.format call.request.code (call.formatter.options call.request.settings) with
    | .ok text => .ok text
    | .error reason => .error (.moduleRejection call.formatter.profile.name reason)

/-- The formatters in modules are the formatter of their supply. -/
theorem format_eq (host : Host ω) : format host = (supply host).format := by
  funext call memo world
  unfold format ModuleFormatter.formatWith Supply.format supply
  dsimp only
  rcases memo.obtain call.formatter.artifact (host.setUp (call.formatter.artifact.under call.base))
    world with ⟨e | m, memo', world'⟩
  · rfl
  · dsimp only
    cases m.format call.request.code (call.formatter.options call.request.settings) <;> rfl

end ModuleCall

/-- In every session with the formatter with plugins a plugin is loaded when a request first needs
it: once for each request until this succeeds, and never after that, and a language without plugins
never reaches the loader. The languages with plugins are JSON, YAML and SQL, and each needs the one
of its name. In every session with formatters in modules that share one memo, such as those for
Python and TOML, which have different files, the same goes for modules and the host. Those that fail
to load fail their requests, and the parts counted are those that were loaded since the memo was
cleared last. -/
theorem loaded_lazily :
    (∀ {ω : Type} (loader : Plugin.Loader ω) (start : ω) (happenings : List (Happening Request ω)),
      (Session.run (Plugin.formatWith loader.recorded) start happenings).Lazy
        (Plugin.supply loader)) ∧
    (∀ language ids, Plugin.neededFor? language = some ids ↔
      language ∈ ["json", "yaml", "sql"] ∧ ids = [language]) ∧
    (∀ {ω : Type} (host : Host ω) (start : ω) (happenings : List (Happening ModuleCall ω)),
      (Session.run (ModuleCall.format host.recorded) start happenings).Lazy
        (ModuleCall.supply host)) ∧
    ModuleFormatter.ruff.artifact ≠ ModuleFormatter.taplo.artifact := by
  refine ⟨?_, fun _ _ => Plugin.neededFor?_eq_some_iff, ?_, by decide⟩
  · intro ω loader start happenings
    rw [Plugin.formatWith_eq]
    exact Session.run_lazy (Plugin.supply loader) start happenings
  · intro ω host start happenings
    rw [ModuleCall.format_eq]
    exact Session.run_lazy (ModuleCall.supply host) start happenings

/-- A loader that is down until the world is mended is asked by each request for JSON until then,
once more, and not again. Requests for Python do not reach it. -/
example :
    let loader : Plugin.Loader Bool := fun id up =>
      if up then Plugin.builtinLoader id up else (.error (.foreignLoad "down"), up)
    let request (language : String) : Happening Request Bool :=
      .call ⟨"1", language, Settings.usual⟩
    let s := Session.run (Plugin.formatWith loader.recorded) false
      [request "json", request "python", request "json", .change fun _ => true, request "json",
        request "json"]
    s.visits.map (fun v => v.setUps.map fun setUp => (setUp.1, setUp.2.isOk)) =
        [[("json", false)], [], [("json", false)], [("json", true)], []] ∧
      s.memo.count = 1 := by
  decide +kernel

end CodeTidy
