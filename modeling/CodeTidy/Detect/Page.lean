import CodeTidy.Detect.Basic

/-!
# Pages of code

A page is worth formatting if it is a page of code. The verdict asks in turn: a page without text
or with too much of it is left alone; a content type of code decides; a page that is not a bare
text document is no page of code; a URL of a source file decides; and otherwise the text must be of
a language that is detected and must look like code.
-/

namespace CodeTidy.Detect

/-- What is known about a page. -/
structure Page where
  url : String
  contentType : Option String
  text : List Char
  /-- The page is shown as a bare text document. -/
  raw : Bool

/-- What a verdict rests on. -/
inductive Reason where
  | empty
  | tooLarge
  | codeContentType
  | richDocument
  | sourceUrl
  | detected
  | notCode
deriving DecidableEq

/-- The name of a reason. -/
def Reason.name : Reason → String
  | .empty => "empty"
  | .tooLarge => "too-large"
  | .codeContentType => "code-content-type"
  | .richDocument => "rich-document"
  | .sourceUrl => "source-url"
  | .detected => "detected"
  | .notCode => "not-code"

/-- The name of a reason in running text. -/
def Reason.title : Reason → String
  | .empty => "Empty"
  | .tooLarge => "TooLarge"
  | .codeContentType => "CodeContentType"
  | .richDocument => "RichDocument"
  | .sourceUrl => "SourceUrl"
  | .detected => "Detected"
  | .notCode => "NotCode"

/-- Whether a page is a page of code, in which language, and why. -/
structure Verdict where
  isCode : Bool
  language : Option String
  reason : Reason
deriving DecidableEq

/-- The verdict as a JSON object. -/
def Verdict.toJson (v : Verdict) : Json :=
  .obj [("isCode", .bool v.isCode),
    ("language", match v.language with
      | some language => .str language
      | none => .null),
    ("reason", .str v.reason.name)]

/-- The verdict for a page of code. -/
def Verdict.code (language : String) (reason : Reason) : Verdict := ⟨true, some language, reason⟩

/-- The verdict for any other page. -/
def Verdict.other (reason : Reason) : Verdict := ⟨false, none, reason⟩

/-- The greatest number of bytes of a page that is looked at. -/
def maxPageBytes : Nat := 1024 * 1024

/-- The number of lines that are looked at for the look of code. -/
def maxLines : Nat := 200

/-- The types of content that are code, and their languages. -/
def codeTypes : List (String × String) :=
  [("application/json", "json"), ("application/ld+json", "json"),
    ("application/manifest+json", "json"), ("application/javascript", "javascript"),
    ("application/x-javascript", "javascript"), ("text/javascript", "javascript"),
    ("application/typescript", "typescript"), ("text/css", "css"), ("application/xml", "xml"),
    ("text/xml", "xml"), ("application/x-yaml", "yaml"), ("application/yaml", "yaml"),
    ("text/yaml", "yaml"), ("text/x-yaml", "yaml"), ("application/toml", "toml"),
    ("text/x-python", "python"), ("application/x-sh", "shell"), ("text/x-sh", "shell"),
    ("application/sql", "sql"), ("text/x-rust", "rust"), ("text/x-go", "go"),
    ("text/x-java-source", "java"), ("text/x-c", "c")]

/-- The language of a type of content, parameters left aside. -/
def languageOfType (contentType : String) : Option String :=
  let bare := (Text.trim (contentType.toList.takeWhile (· != ';'))).map Text.lowerAscii
  match codeTypes.lookup (String.ofList bare) with
  | some language => some language
  | none =>
    if "+json".toList.isSuffixOf bare then some "json"
    else if "+xml".toList.isSuffixOf bare && bare != "application/xhtml+xml".toList then some "xml"
    else none

/-- The text behind the first `://`, or the whole text if there is none. -/
def afterScheme (url : List Char) : List Char := go url
where
  /-- Looks for the mark in what is left of the URL. -/
  go : List Char → List Char
    | ':' :: '/' :: '/' :: rest => rest
    | _ :: rest => go rest
    | [] => url

/-- The path of a URL, from the first slash behind the scheme up to a query or a fragment. A path
that is only a slash counts as none. -/
def urlPath? (url : String) : Option String :=
  match (afterScheme url.toList).dropWhile (· != '/') with
  | [] => none
  | rest =>
    let path := Language.beforeQuery rest
    if 1 < path.length then some (String.ofList path) else none

/-- Characters at the end of a line that speak for code. -/
def codeEndings : List Char := [';', '\x7b', '\x7d', '(', ')', '[', ']', ',', ':', '>']

/-- Beginnings of a line that speak for a comment. -/
def commentStarts : List String := ["//", "/*", "*", "#", "--", "<!--"]

/-- Parts of a line that speak for code. -/
def codeOperators : List String := ["=", "=>", "->", "::", "&&", "||", "()"]

/-- Does a line look like code? A sentence of six words or more that ends in a period does not. -/
def isCodeLine (line : List Char) : Bool :=
  let trimmed := Text.trim line
  if Text.endsIn ['.'] trimmed && 6 ≤ (Text.words trimmed).length then false
  else
    let indented := match line with
      | ' ' :: _ => true
      | '\t' :: _ => true
      | _ => false
    indented || Text.endsIn codeEndings trimmed
      || commentStarts.any (fun m => m.toList.isPrefixOf trimmed)
      || codeOperators.any (fun op => Text.hasPart op.toList trimmed)

/-- Does at least half of the text look like code, line by line? Blank lines do not count, and
only the first lines do. -/
def looksLikeCode (text : List Char) : Bool :=
  let seen := ((Text.lines text).filter (!Text.allBlank ·)).take maxLines
  0 < seen.length && seen.length ≤ 2 * (seen.filter isCodeLine).length

/-- The verdict on a page. -/
def classify (page : Page) : Verdict :=
  if Text.allBlank page.text then .other .empty
  else if maxPageBytes < Text.byteLength page.text then .other .tooLarge
  else
    match page.contentType.bind languageOfType with
    | some language => .code language .codeContentType
    | none =>
      if !page.raw then .other .richDocument
      else
        match (urlPath? page.url).bind Language.ofPath? with
        | some language => .code language .sourceUrl
        | none =>
          match detect page.text with
          | some found =>
            if looksLikeCode page.text then .code found.language .detected else .other .notCode
          | none => .other .notCode

end CodeTidy.Detect
