import CodeTidy.Text.Blank

/-!
# Tokens of markup

Markup is cut into tags, texts and other pieces such as comments and declarations. Each token
keeps its characters, so the tokens of a text make up the text again. In HTML names of tags have no
case, void elements need no end tag, and the content of a few elements is one piece up to their end
tag.
-/

namespace CodeTidy.Markup

/-- A piece of markup. -/
inductive Token where
  | openTag (name raw : List Char) (selfClosing : Bool)
  | closeTag (name raw : List Char)
  | text (raw : List Char)
  | other (raw : List Char)
deriving DecidableEq

/-- The characters of a token. -/
def Token.raw : Token → List Char
  | .openTag _ raw _ => raw
  | .closeTag _ raw => raw
  | .text raw => raw
  | .other raw => raw

/-- The elements of HTML that have no end tag. -/
def voidElements : List String :=
  ["area", "base", "br", "col", "embed", "hr", "img", "input", "link", "meta", "source", "track",
    "wbr"]

/-- The elements whose content is not laid out as markup. -/
def rawElements : List String := ["script", "style", "pre", "textarea"]

/-- Is this the name of an element whose content is not laid out as markup? -/
def isRawElement (name : List Char) : Bool := rawElements.contains (String.ofList name)

/-- The length of a tag up to its closing angle bracket, added to `n`, or `none` if it is not
closed. A bracket between quotes does not close it. -/
def tagEnd? (quote : Option Char) (n : Nat) : List Char → Option Nat
  | [] => none
  | c :: rest =>
    match quote with
    | some q => tagEnd? (if c == q then none else quote) (n + 1) rest
    | none =>
      if c == '"' || c == '\'' then tagEnd? (some c) (n + 1) rest
      else if c == '>' then some (n + 1)
      else tagEnd? none (n + 1) rest

/-- The place of `sub` in the text, counted from `n`. -/
def find? (sub : List Char) (n : Nat) : List Char → Option Nat
  | [] => if sub.isEmpty then some n else none
  | c :: rest => if sub.isPrefixOf (c :: rest) then some n else find? sub (n + 1) rest

/-- The name of a tag, whose characters start behind its opening mark. -/
def tagName (html : Bool) (s : List Char) : List Char :=
  let name := s.takeWhile fun c => !Text.isBlank c && c != '/' && c != '>'
  if html then name.map Text.lowerAscii else name

/-- The tokens that a complete tag gives rise to: the tag, and for a raw element of HTML also its
content, if an end tag of the name follows in `rest`. -/
def tagTokens (html : Bool) (raw rest : List Char) : List Token :=
  if "<!".toList.isPrefixOf raw || "<?".toList.isPrefixOf raw then [.other raw]
  else if "</".toList.isPrefixOf raw then [.closeTag (tagName html (raw.drop 2)) raw]
  else
    let name := tagName html (raw.drop 1)
    let selfClosing := "/>".toList.isSuffixOf raw
      || (html && voidElements.contains (String.ofList name))
    if html && !selfClosing && isRawElement name then
      match find? ('<' :: '/' :: name) 0 (rest.map Text.lowerAscii) with
      | some n => [.openTag name raw false, .other (rest.take n)]
      | none => [.openTag name raw false]
    else [.openTag name raw selfClosing]

/-- The tokens at the start of a text that is not empty. -/
def leading (html : Bool) (text : List Char) : List Token :=
  match text with
  | '<' :: rest =>
    if "<!--".toList.isPrefixOf text then
      match find? "-->".toList 0 text with
      | some n => [.other (text.take (n + 3))]
      | none => [.other text]
    else
      match tagEnd? none 1 rest with
      | some n => tagTokens html (text.take n) (text.drop n)
      | none => [.text text]
  | _ => [.text (text.takeWhile (· != '<'))]

/-- The number of characters of the tokens. -/
def width (tokens : List Token) : Nat := tokens.foldl (fun n t => n + t.raw.length) 0

/-- Cuts a text into tokens, at most `fuel` times. -/
def tokenizeFrom (html : Bool) : Nat → List Token → List Char → List Token
  | 0, done, _ => done.reverse
  | _ + 1, done, [] => done.reverse
  | fuel + 1, done, c :: rest =>
    let tokens := leading html (c :: rest)
    tokenizeFrom html fuel (tokens.reverse ++ done) ((c :: rest).drop (width tokens))

/-- The tokens of a text. Each cut takes at least one character. -/
def tokenize (html : Bool) (text : List Char) : List Token := tokenizeFrom html text.length [] text

end CodeTidy.Markup
