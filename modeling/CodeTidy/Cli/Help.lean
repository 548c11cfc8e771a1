/-!
# Help

The texts that explain the command line.
-/

namespace CodeTidy.Cli

/-- The help on all commands. -/
def generalHelp : List String :=
  ["Detects source code in page text and formats it through pluggable formatter backends",
    "",
    "Usage: codeview [OPTIONS] <COMMAND>",
    "",
    "Commands:",
    "  format     Format a file or stdin and print the result",
    "  detect     Detect the language of a file, stdin, or a page",
    "  languages  List supported languages and their backends",
    "  version    Show version information",
    "  help       Print this message or the help of the given subcommand(s)",
    "",
    "Options:",
    "  -c, --config <CONFIG>  Configuration file path (default: nearest .codeview.toml)",
    "  -v, --verbose          Show debug logging",
    "  -h, --help             Print help",
    "  -V, --version          Print version"]

/-- The help on the command that formats. -/
def formatHelp : List String :=
  ["Format a file or stdin and print the result",
    "",
    "Usage: codeview format [OPTIONS] [PATH]",
    "",
    "Arguments:",
    "  [PATH]  File to format; reads stdin when omitted",
    "",
    "Options:",
    "  -c, --config <CONFIG>        Configuration file path (default: nearest .codeview.toml)",
    "  -l, --language <LANGUAGE>    "
      ++ "Language of the input; detected from the file name or content when",
    "                               omitted",
    "      --indent <INDENT>        Indentation width, or \"tab\"",
    "  -v, --verbose                Show debug logging",
    "      --single-quote           Prefer single quotes",
    "      --line-wrap <LINE_WRAP>  Maximum line width, 0 for unlimited",
    "      --stats                  Print the cache statistics to stderr afterwards",
    "  -h, --help                   Print help"]

/-- The help on the command that detects. -/
def detectHelp : List String :=
  ["Detect the language of a file, stdin, or a page",
    "",
    "Usage: codeview detect [OPTIONS] [PATH]",
    "",
    "Arguments:",
    "  [PATH]  File to inspect; reads stdin when omitted",
    "",
    "Options:",
    "  -c, --config <CONFIG>              "
      ++ "Configuration file path (default: nearest .codeview.toml)",
    "      --url <URL>                    Classify the text as a page served from this URL",
    "      --content-type <CONTENT_TYPE>  Content-Type the page was served with",
    "  -v, --verbose                      Show debug logging",
    "      --rich                         "
      ++ "The page was rendered as a rich document rather than raw text",
    "      --scores                       Show the evidence for every matching language",
    "      --json                         Print the result as JSON",
    "  -h, --help                         Print help"]

/-- The help on the command that lists languages. -/
def languagesHelp : List String :=
  ["List supported languages and their backends",
    "",
    "Usage: codeview languages [OPTIONS]",
    "",
    "Options:",
    "  -c, --config <CONFIG>  Configuration file path (default: nearest .codeview.toml)",
    "      --json             Print as JSON",
    "  -v, --verbose          Show debug logging",
    "  -h, --help             Print help"]

/-- The help on the command that shows the version. -/
def versionHelp : List String :=
  ["Show version information",
    "",
    "Usage: codeview version [OPTIONS]",
    "",
    "Options:",
    "  -c, --config <CONFIG>  Configuration file path (default: nearest .codeview.toml)",
    "  -v, --verbose          Show debug logging",
    "  -h, --help             Print help"]

/-- The help on a command, or on all of them. -/
def helpText (command : Option String) : String :=
  let lines := match command with
    | some "format" => formatHelp
    | some "detect" => detectHelp
    | some "languages" => languagesHelp
    | some "version" => versionHelp
    | _ => generalHelp
  String.join (lines.map (· ++ "\n"))

end CodeTidy.Cli
