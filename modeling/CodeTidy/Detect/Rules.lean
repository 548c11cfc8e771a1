import CodeTidy.Pattern.Reader

/-!
# The rules of detection

A rule says that a text in which its pattern is found is evidence for a language, with a weight
from one to ten. The order of the rules matters: of two languages with equal evidence the one whose
matching rule comes first is preferred.
-/

namespace CodeTidy.Detect

/-- A pattern that is evidence for a language. -/
structure Rule where
  language : String
  weight : Nat
  pattern : Pattern

/-- A rule whose pattern is given in its written form. A text that writes no pattern gives a rule
that never applies. -/
def rule (language : String) (weight : Nat) (pattern : String) : Rule :=
  ⟨language, weight, (Pattern.ofString? pattern).getD .fail⟩

/-- The rules in their order. -/
def rules : List Rule := [
  rule "javascript" 3
    "\\b(?:const|let|var)\\s+\\w+\\s*=",
  rule "javascript" 4
    "\\bfunction\\s*\\w*\\s*\\(",
  rule "javascript" 3
    "=>\\s*[\x7b(\\w]",
  rule "javascript" 5
    "\\bconsole\\.(?:log|error|warn|info)\\(",
  rule "javascript" 4
    "\\b(?:document|window)\\.\\w+",
  rule "javascript" 5
    "\\brequire\\(\\s*['\"]",
  rule "javascript" 4
    "(?m)^\\s*(?:import\\s+.+\\s+from\\s+['\"]|export\\s+(?:default|const|function|class)\\b)",
  rule "typescript" 6
    ":\\s*(?:string|number|boolean|any|void|unknown|never)\\b",
  rule "typescript" 5
    "\\binterface\\s+\\w+\\s*\\\x7b",
  rule "typescript" 5
    "(?m)^\\s*(?:export\\s+)?type\\s+\\w+\\s*=",
  rule "typescript" 5
    "\\b(?:public|private|protected|readonly)\\s+\\w+\\s*[:?]",
  rule "typescript" 5
    "\\bas\\s+(?:const|string|number|any|unknown)\\b",
  rule "python" 7
    "(?m)^\\s*def\\s+\\w+\\s*\\(.*\\)\\s*(?:->\\s*[\\w\\[\\], .]+)?:\\s*$",
  rule "python" 5
    "(?m)^\\s*(?:from\\s+[\\w.]+\\s+import\\s+\\w|import\\s+\\w+(?:\\s+as\\s+\\w+)?\\s*$)",
  rule "python" 6
    "(?m)^\\s*class\\s+\\w+(?:\\(.*\\))?:\\s*$",
  rule "python" 6
    "(?m)^\\s*(?:elif|except|with)\\b.*:\\s*$",
  rule "python" 4
    "\\bself\\.\\w+",
  rule "python" 2
    "\\bprint\\(",
  rule "python" 2
    "\\b(?:None|True|False)\\b",
  rule "python" 9
    "if\\s+__name__\\s*==\\s*['\"]__main__['\"]",
  rule "json" 6
    "^\\s*[\\\x7b\\[]\\s*\"[^\"]+\"\\s*:",
  rule "json" 3
    "\"[\\w-]+\"\\s*:\\s*(?:\"|\\d|true|false|null|\\[|\\\x7b)",
  rule "html" 10
    "(?i)<!DOCTYPE\\s+html",
  rule "html" 5
    "(?i)<(?:html|head|body|div|span|p|a|ul|li|table|form)\\b[^>]*>",
  rule "html" 4
    "(?i)</(?:div|span|p|a|li|body|html|table|form)>",
  rule "xml" 10
    "^\\s*<\\?xml\\s",
  rule "xml" 6
    "\\bxmlns(?::\\w+)?=\"",
  rule "xml" 4
    "</\\w+:\\w+>",
  rule "css" 2
    "(?m)^\\s*[.#]?[\\w-]+(?:\\s*[,>+~]\\s*[.#]?[\\w-]+)*\\s*\\\x7b",
  rule "css" 5
    "\\b(?:color|margin|padding|display|font-size|background|border|width|height)\\s*:\\s*[^;\x7b\x7d]+;",
  rule "css" 6
    "@(?:media|import|keyframes|font-face)\\b",
  rule "sql" 6
    "(?is)\\bSELECT\\b.+?\\bFROM\\b",
  rule "sql" 7
    "(?i)\\bINSERT\\s+INTO\\b",
  rule "sql" 8
    "(?i)\\bCREATE\\s+(?:TABLE|INDEX|VIEW)\\b",
  rule "sql" 7
    "(?i)\\bUPDATE\\s+\\w+\\s+SET\\b",
  rule "sql" 4
    "(?i)\\bWHERE\\s+[\\w.]+\\s*(?:=|<>|!=|\\bLIKE\\b|\\bIN\\b)",
  rule "rust" 6
    "\\bfn\\s+\\w+\\s*(?:<[^>]*>)?\\s*\\(",
  rule "rust" 7
    "\\blet\\s+mut\\s+\\w+",
  rule "rust" 4
    "(?m)^\\s*(?:pub\\s+)?(?:struct|enum|trait|impl)\\b",
  rule "rust" 6
    "\\b(?:println|vec|format|assert_eq|panic)!\\(",
  rule "rust" 8
    "(?m)^\\s*use\\s+(?:std|crate|super|self)::",
  rule "rust" 7
    "&(?:mut\\s+)?self\\b",
  rule "go" 6
    "(?m)^\\s*package\\s+\\w+\\s*$",
  rule "go" 7
    "\\bfunc\\s+(?:\\([^)]*\\)\\s*)?\\w+\\s*\\(",
  rule "go" 4
    ":=",
  rule "go" 7
    "\\bfmt\\.\\w+\\(",
  rule "go" 4
    "(?m)^\\s*import\\s+(?:\\(|\")",
  rule "java" 6
    "\\bpublic\\s+(?:static\\s+)?(?:final\\s+)?(?:class|void|interface)\\b",
  rule "java" 9
    "\\bSystem\\.out\\.print(?:ln)?\\(",
  rule "java" 9
    "(?m)^\\s*import\\s+java\\.",
  rule "java" 6
    "@Override\\b",
  rule "java" 4
    "\\bprivate\\s+(?:final\\s+)?\\w+(?:<[^>]*>)?\\s+\\w+\\s*[;=]",
  rule "c" 7
    "(?m)^\\s*#include\\s*<\\w+\\.h>",
  rule "c" 4
    "\\bprintf\\s*\\(",
  rule "c" 5
    "\\bint\\s+main\\s*\\(",
  rule "c" 5
    "\\bmalloc\\s*\\(",
  rule "cpp" 9
    "(?m)^\\s*#include\\s*<(?:iostream|vector|string|map|memory|algorithm)>",
  rule "cpp" 7
    "\\bstd::\\w+",
  rule "cpp" 6
    "\\b(?:cout|cin|endl)\\b",
  rule "cpp" 6
    "\\btemplate\\s*<",
  rule "cpp" 8
    "(?m)^\\s*using\\s+namespace\\s+\\w+;",
  rule "csharp" 9
    "(?m)^\\s*using\\s+System(?:\\.\\w+)*;",
  rule "csharp" 9
    "\\bConsole\\.Write(?:Line)?\\(",
  rule "csharp" 8
    "\\\x7b\\s*get;\\s*(?:set;\\s*)?\\\x7d",
  rule "csharp" 3
    "\\bnamespace\\s+[\\w.]+",
  rule "csharp" 4
    "\\bvar\\s+\\w+\\s*=\\s*new\\s+\\w+",
  rule "php" 10
    "<\\?php",
  rule "php" 4
    "\\$\\w+\\s*=",
  rule "php" 7
    "\\bfunction\\s+\\w+\\s*\\(\\s*\\$",
  rule "php" 3
    "->\\w+\\(",
  rule "ruby" 5
    "(?m)^\\s*def\\s+\\w+[?!]?(?:\\(.*\\))?\\s*$",
  rule "ruby" 5
    "(?m)^\\s*end\\s*$",
  rule "ruby" 4
    "(?m)^\\s*puts\\s+",
  rule "ruby" 5
    "(?m)^\\s*require\\s+['\"]",
  rule "ruby" 8
    "\\.each\\s+do\\s*\\|",
  rule "ruby" 3
    "(?m)^\\s*(?:module|class)\\s+[A-Z]\\w*(?:\\s*<\\s*\\w+)?\\s*$",
  rule "shell" 10
    "^#!\\s*/(?:usr/)?bin/(?:env\\s+)?(?:ba|z|k)?sh\\b",
  rule "shell" 6
    "(?m)^\\s*(?:if|while)\\s+\\[\\[?\\s",
  rule "shell" 6
    "(?m)^\\s*(?:fi|done|esac)\\s*$",
  rule "shell" 3
    "(?m)^\\s*echo\\s+",
  rule "shell" 3
    "\\$\\\x7b\\w+(?:[:#%/][^\x7d]*)?\\\x7d",
  rule "shell" 6
    "(?m)^\\s*export\\s+[A-Z_][A-Z0-9_]*=",
  rule "yaml" 3
    "(?m)^---\\s*$",
  rule "yaml" 3
    "(?m)^[\\w-]+:\\s*$",
  rule "yaml" 4
    "(?m)^\\s*-\\s+[\\w-]+:\\s",
  rule "yaml" 2
    "(?m)^[\\w-]+:\\s+[^\x7b\x7d;]+$",
  rule "toml" 5
    "(?m)^\\s*\\[[\\w.-]+\\]\\s*$",
  rule "toml" 8
    "(?m)^\\s*\\[\\[[\\w.-]+\\]\\]\\s*$",
  rule "toml" 3
    "(?m)^\\s*[\\w-]+\\s*=\\s*(?:\"[^\"]*\"|\\d+|true|false|\\[)",
  rule "markdown" 3
    "(?m)^#\x7b1,6\x7d\\s+\\S",
  rule "markdown" 6
    "(?m)^```\\w*\\s*$",
  rule "markdown" 4
    "\\[[^\\]]+\\]\\([^)]+\\)",
  rule "markdown" 6
    "(?m)^\\s*[-*]\\s+\\[[ x]\\]\\s",
  rule "markdown" 3
    "\\*\\*[^*\\n]+\\*\\*"]

/-- The languages that rules speak of, in the order of their first rules. -/
def languages : List String := (rules.map (·.language)).eraseDups

end CodeTidy.Detect
