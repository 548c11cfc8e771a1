import CodeTidy.Backend.Module
import CodeTidy.Backend.Plugin
import CodeTidy.Brace.Layout
import CodeTidy.Markup.Layout
import CodeTidy.Registry
import CodeTidy.Whitespace.Layout

/-!
# The built-in backends

The beautifier lays out scripts, style sheets, JSON and markup. Plugins format JSON, YAML and SQL,
binary modules format Python and TOML, and every known language without one of these gets its
white space tidied. Plugins and modules are kept on a workbench once they are set up.
-/

namespace CodeTidy

/-- What the built-in backends keep, in a world of type `ω`. -/
structure Workbench (ω : Type) where
  plugins : Memo String Plugin := {}
  modules : Memo Artifact Module := {}
  world : ω

namespace Backend

/-- Lays out code of a language that the beautifier knows. -/
def beautified (r : Request) : Except Failure String :=
  let code := r.code.toList
  let brace (mode : Brace.Mode) : Except Failure String :=
    .ok (String.ofList (Brace.beautify r.settings mode code))
  let markup (html : Bool) : Except Failure String :=
    .ok (String.ofList (Markup.beautify r.settings html code))
  match r.language with
  | "javascript" | "typescript" => brace .script
  | "css" => brace (.style false)
  | "scss" | "less" => brace (.style true)
  | "json" => brace .data
  | "html" => markup true
  | "xml" => markup false
  | _ => .error (.noLayout r.language)

variable {σ ω : Type}

/-- The beautifier, which never rejects code of its languages. -/
def beautifier : Backend σ :=
  .pure
    { id := "beautify", name := "Beautify", tolerant := true
      languages := ["javascript", "typescript", "json", "css", "scss", "less", "html", "xml"] }
    beautified

/-- Tidies the white space of code of any language. -/
def tidied (r : Request) : Except Failure String :=
  .ok (String.ofList (Whitespace.tidy r.settings.indentUnit r.language r.code.toList))

/-- The backend that only tidies white space, for every known language. -/
def whitespace : Backend σ :=
  .pure
    { id := "fallback", name := "Whitespace Normalizer", tolerant := true
      languages := Language.canonical }
    tidied

/-- The backend of the plugins that a loader provides. -/
def plugins (loader : Plugin.Loader ω) : Backend (Workbench ω) where
  profile := {
    id := "plugins", name := "Plugin Formatter", isFormatter := true, isOpinionated := true
    languages := Plugin.table.map (·.1) }
  format r bench :=
    let (result, plugins, world) := Plugin.formatWith loader r bench.plugins bench.world
    (.ofExcept result, { bench with plugins, world })

/-- The backend of a binary module on a host, with its files below `base`. -/
def ofModule (host : Host ω) (base : String) (m : ModuleFormatter) : Backend (Workbench ω) where
  profile := m.profile
  isAvailable _ := host.supportsModules
  format r bench :=
    let (result, modules, world) := m.formatWith host base r bench.modules bench.world
    (.ofExcept result, { bench with modules, world })

end Backend

/-- The registry of the built-in backends. Opinionated ones are registered behind the beautifier,
and white space is tidied where nothing else is bound. -/
def Registry.builtin {ω : Type} (host : Host ω) (loader : Plugin.Loader ω) (base : String) :
    Registry (Workbench ω) :=
  let r : Registry (Workbench ω) := {}
  let r := r.register .beautifier
  let r := r.register (.plugins loader)
  let r := r.register (.ofModule host base .ruff)
  let r := r.register (.ofModule host base .taplo)
  r.registerFallback .whitespace

end CodeTidy
