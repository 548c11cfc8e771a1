import CodeTidy.Backend.Basic
import CodeTidy.Memo.Basic

/-!
# Binary modules

A binary module is a compiled formatter, set up by a host from two files: a loader and the binary.
A module is set up when it is first needed, once for every pair of files.
-/

namespace CodeTidy

/-- The two files of a module. -/
structure Artifact where
  loader : String
  binary : String
deriving DecidableEq

/-- A module that has been set up. It formats code by options of its own. -/
structure Module where
  format : String → Json → Except String String

/-- An environment that can run modules, in a world of type `ω`. -/
structure Host (ω : Type) where
  /-- Can modules run at all? -/
  supportsModules : Bool
  /-- Sets a module up from the places of its files. -/
  setUp : Artifact → Initializer ω String Module

/-- The host that runs no modules. -/
def Host.none {ω : Type} : Host ω where
  supportsModules := false
  setUp a world :=
    (.error ("Cannot load " ++ a.loader ++ ": binary modules are not supported here"), world)

/-- The places of the files below a base. -/
def Artifact.under (a : Artifact) (base : String) : Artifact :=
  let base := String.ofList (base.toList.reverse.dropWhile (· == '/')).reverse
  if base.isEmpty then a else ⟨base ++ "/" ++ a.loader, base ++ "/" ++ a.binary⟩

/-- A formatter in a binary module. -/
structure ModuleFormatter where
  profile : Profile
  artifact : Artifact
  /-- The options of the module for given settings. -/
  options : Settings → Json

namespace ModuleFormatter

/-- The formatter for Python. It takes lines of at most 320 columns. -/
def ruff : ModuleFormatter where
  profile := {
    id := "ruff", name := "Ruff", languages := ["python"], isFormatter := true,
    isOpinionated := true }
  artifact := ⟨"ruff_fmt.js", "ruff_fmt_bg.wasm"⟩
  options s := .obj [
    ("indent_style", .str (if s.useTabs then "tab" else "space")),
    ("indent_width", .ofNat s.indentColumns),
    ("line_width", .ofNat (min s.lineWrap.limit 320)),
    ("quote_style", .str s.quoteStyle.name)]

/-- The formatter for TOML. It takes lines of less than `2 ^ 32` columns. -/
def taplo : ModuleFormatter where
  profile := { id := "taplo", name := "Taplo", languages := ["toml"], isFormatter := true }
  artifact := ⟨"taplo_fmt.js", "taplo_fmt_bg.wasm"⟩
  options s := .obj [
    ("indent_string", .str (String.ofList s.indentUnit)),
    ("align_entries", .bool s.alignEntries),
    ("align_comments", .bool s.alignComments),
    ("indent_tables", .bool s.indentTables),
    ("column_width", .ofNat (min s.lineWrap.limit 0xffffffff)),
    ("trailing_newline", .bool true)]

variable {ω : Type}

/-- Formats code with the module of a formatter, whose files lie below `base`. -/
def formatWith (m : ModuleFormatter) (host : Host ω) (base : String) (r : Request)
    (memo : Memo Artifact Module) (world : ω) :
    Except Failure String × Memo Artifact Module × ω :=
  match memo.obtain m.artifact (host.setUp (m.artifact.under base)) world with
  | (.error reason, memo, world) => (.error (.moduleSetup m.profile.name reason), memo, world)
  | (.ok module, memo, world) =>
    match module.format r.code (m.options r.settings) with
    | .ok text => (.ok text, memo, world)
    | .error reason => (.error (.moduleRejection m.profile.name reason), memo, world)

end ModuleFormatter

end CodeTidy
