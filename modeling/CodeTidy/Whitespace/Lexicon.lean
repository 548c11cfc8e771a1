/-!
# Lexicons

A lexicon holds what has to be known of a language to tell which lines of a text lie inside a
literal or a comment: the marks of comments and the delimiters of literals.
-/

namespace CodeTidy.Whitespace

/-- How a kind of literal is written. -/
structure Delimiter where
  opening : List Char
  closing : List Char
  /-- The literal may go on over the end of a line. -/
  multiline : Bool
  /-- A backslash means itself, and the closing mark written twice stands for the mark. -/
  raw : Bool
deriving DecidableEq

/-- A literal between two equal marks in which a backslash escapes. -/
def quoted (quote : String) (multiline : Bool) : Delimiter :=
  ⟨quote.toList, quote.toList, multiline, false⟩

/-- A literal of any length without escapes. -/
def rawLiteral (opening closing : String) : Delimiter :=
  ⟨opening.toList, closing.toList, true, true⟩

/-- The comments and literals of a language. -/
structure Lexicon where
  lineComments : List (List Char)
  blockComments : Bool
  /-- The delimiters in the order in which they are tried. -/
  delimiters : List Delimiter
  /-- A single quote starts a literal of one character only, and is a mark of its own otherwise. -/
  charLiterals : Bool

namespace Lexicon

def cLike : Lexicon where
  lineComments := ["//".toList]
  blockComments := true
  delimiters := [quoted "\"\"\"" true, quoted "'''" true, quoted "\"" true, quoted "`" true,
    quoted "'" false]
  charLiterals := false

def csharp : Lexicon where
  lineComments := ["//".toList]
  blockComments := true
  delimiters := [quoted "\"\"\"" true, rawLiteral "@\"" "\"", quoted "\"" true, quoted "'" false]
  charLiterals := false

def go : Lexicon where
  lineComments := ["//".toList]
  blockComments := true
  delimiters := [rawLiteral "`" "`", quoted "\"" false, quoted "'" false]
  charLiterals := false

def rust : Lexicon where
  lineComments := ["//".toList]
  blockComments := true
  delimiters := [rawLiteral "r#\"" "\"#", rawLiteral "r\"" "\"", quoted "\"" true]
  charLiterals := true

def css : Lexicon where
  lineComments := []
  blockComments := true
  delimiters := [quoted "\"" false, quoted "'" false]
  charLiterals := false

def sass : Lexicon := { css with lineComments := ["//".toList] }

def php : Lexicon where
  lineComments := ["//".toList, "#".toList]
  blockComments := true
  delimiters := [quoted "\"" true, quoted "'" true]
  charLiterals := false

def terraform : Lexicon where
  lineComments := ["#".toList, "//".toList]
  blockComments := true
  delimiters := [quoted "\"" true]
  charLiterals := false

def hash : Lexicon where
  lineComments := ["#".toList]
  blockComments := false
  delimiters := [quoted "\"\"\"" true, quoted "'''" true, quoted "\"" true, quoted "'" true]
  charLiterals := false

def dash : Lexicon where
  lineComments := ["--".toList]
  blockComments := false
  delimiters := [quoted "\"" true]
  charLiterals := false

/-- The languages and their lexicons. -/
def table : List (List String × Lexicon) :=
  [(["rust"], rust), (["go"], go), (["csharp"], csharp), (["css"], css), (["scss", "less"], sass),
    (["php"], php), (["terraform"], terraform),
    (["python", "ruby", "shell", "perl", "r", "elixir", "graphql", "toml", "dockerfile",
      "makefile"], hash),
    (["haskell", "lua", "sql"], dash),
    (["c", "cpp", "objective-c", "java", "kotlin", "scala", "groovy", "swift", "dart",
      "javascript", "typescript", "json", "protobuf"], cLike)]

/-- The lexicon of a language. Markup, prose and data without string syntax have none. -/
def ofLanguage? (language : String) : Option Lexicon :=
  (table.find? fun (languages, _) => languages.contains language).map (·.2)

end Lexicon

/-- The languages whose nesting is written with brackets, so that indenting by the depth of
brackets cannot change what a text means. -/
def braceLanguages : List String :=
  ["c", "cpp", "csharp", "css", "dart", "go", "graphql", "groovy", "java", "javascript", "json",
    "kotlin", "less", "objective-c", "perl", "php", "protobuf", "r", "rust", "scala", "scss",
    "swift", "terraform", "typescript"]

end CodeTidy.Whitespace
