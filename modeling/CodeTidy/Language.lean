import CodeTidy.Text.Blank
import CodeTidy.Text.Lowercase

/-!
# Names of languages

A language goes by several names: `js`, `node` and `mjs` all mean `javascript`. `normalize` maps
each known name to its canonical one and leaves an unknown name as it is, trimmed and in lower
case, so that two names mean the same language exactly when they normalize to the same text.
-/

namespace CodeTidy.Language

/-- The known names, each with the canonical name of its language. -/
def aliases : List (String × String) :=
  [("python", "python"), ("py", "python"), ("python3", "python"), ("py3", "python"),
    ("pyw", "python"), ("javascript", "javascript"), ("js", "javascript"),
    ("ecmascript", "javascript"), ("node", "javascript"), ("nodejs", "javascript"),
    ("mjs", "javascript"), ("cjs", "javascript"), ("typescript", "typescript"),
    ("ts", "typescript"), ("mts", "typescript"), ("cts", "typescript"), ("shell", "shell"),
    ("bash", "shell"), ("sh", "shell"), ("zsh", "shell"), ("ksh", "shell"),
    ("shellscript", "shell"), ("rust", "rust"), ("rs", "rust"), ("go", "go"), ("golang", "go"),
    ("ruby", "ruby"), ("rb", "ruby"), ("java", "java"), ("kotlin", "kotlin"), ("kt", "kotlin"),
    ("kts", "kotlin"), ("scala", "scala"), ("groovy", "groovy"), ("c", "c"), ("h", "c"),
    ("c++", "cpp"), ("cpp", "cpp"), ("cxx", "cpp"), ("cc", "cpp"), ("hpp", "cpp"),
    ("c#", "csharp"), ("csharp", "csharp"), ("cs", "csharp"), ("objective-c", "objective-c"),
    ("objc", "objective-c"), ("swift", "swift"), ("php", "php"), ("perl", "perl"), ("pl", "perl"),
    ("r", "r"), ("lua", "lua"), ("dart", "dart"), ("haskell", "haskell"), ("hs", "haskell"),
    ("elixir", "elixir"), ("ex", "elixir"), ("exs", "elixir"), ("html", "html"), ("htm", "html"),
    ("xhtml", "html"), ("vue", "html"), ("css", "css"), ("scss", "scss"), ("less", "less"),
    ("xml", "xml"), ("xsd", "xml"), ("xsl", "xml"), ("xslt", "xml"), ("markdown", "markdown"),
    ("md", "markdown"), ("mkd", "markdown"), ("json", "json"), ("jsonc", "json"),
    ("json5", "json"), ("geojson", "json"), ("webmanifest", "json"), ("yaml", "yaml"),
    ("yml", "yaml"), ("toml", "toml"), ("ini", "ini"), ("cfg", "ini"), ("conf", "ini"),
    ("sql", "sql"), ("mysql", "sql"), ("postgresql", "sql"), ("postgres", "sql"),
    ("sqlite", "sql"), ("plsql", "sql"), ("graphql", "graphql"), ("gql", "graphql"),
    ("dockerfile", "dockerfile"), ("docker", "dockerfile"), ("makefile", "makefile"),
    ("make", "makefile"), ("terraform", "terraform"), ("tf", "terraform"), ("hcl", "terraform"),
    ("protobuf", "protobuf"), ("proto", "protobuf"), ("diff", "diff"), ("patch", "diff")]

/-- Names of files that tell the language without an extension. -/
def fileNames : List (String × String) :=
  [("dockerfile", "dockerfile"), ("containerfile", "dockerfile"), ("makefile", "makefile"),
    ("gnumakefile", "makefile"), ("gemfile", "ruby"), ("rakefile", "ruby"),
    ("cargo.lock", "toml"), (".bashrc", "shell"), (".zshrc", "shell"), (".profile", "shell")]

/-- Extensions of files that are no names of languages. -/
def extensions : List (String × String) :=
  [("jsx", "javascript"), ("tsx", "typescript"), ("pyi", "python"), ("mk", "makefile"),
    ("hh", "cpp"), ("cshtml", "html"), ("svg", "xml"), ("plist", "xml"),
    ("bash_profile", "shell"), ("gradle", "groovy")]

/-- The name trimmed and in lower case, the form in which names are looked up. -/
def fold (name : String) : String :=
  String.ofList (Text.lowercase (Text.trim name.toList))

/-- The canonical name of the language. -/
def normalize (name : String) : String :=
  let folded := fold name
  (aliases.lookup folded).getD folded

/-- Is this a name of a known language? -/
def isKnown (name : String) : Bool := (aliases.lookup (fold name)).isSome

/-- Puts a text into an ascending list, unless it is there already. -/
def insertSorted (name : String) : List String → List String
  | [] => [name]
  | n :: ns =>
    if name < n then name :: n :: ns
    else if name == n then n :: ns
    else n :: insertSorted name ns

/-- The texts in ascending order, each once. -/
def sorted (names : List String) : List String := names.foldr insertSorted []

/-- The canonical names of all known languages, ascending. -/
def canonical : List String := sorted (aliases.map (·.2))

/-- The part of a path or URL in front of a query and a fragment. -/
def beforeQuery (path : List Char) : List Char := path.takeWhile fun c => c != '?' && c != '#'

/-- The last component of a path. -/
def fileName (path : List Char) : List Char :=
  (path.reverse.takeWhile fun c => c != '/' && c != '\\').reverse

/-- The part behind the last dot, if there is one. -/
def extension? (name : List Char) : Option (List Char) :=
  if name.contains '.' then some (name.reverse.takeWhile (· != '.')).reverse else none

/-- The language of a file, told from its name, path or URL. Known file names win over
extensions. -/
def ofPath? (path : String) : Option String :=
  let name := fileName (beforeQuery path.toList)
  if name.isEmpty then none
  else
    let name := Text.lowercase name
    match fileNames.lookup (String.ofList name) with
    | some language => some language
    | none =>
      match extension? name with
      | none => none
      | some ext =>
        let ext := String.ofList ext
        (extensions.lookup ext).or (aliases.lookup ext)

end CodeTidy.Language
