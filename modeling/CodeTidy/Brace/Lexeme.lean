import CodeTidy.Text.Blank

/-!
# Lexemes of brace languages

Scripts, style sheets and data share their braces, strings and comments. A lexeme is the next
piece of the text that the layout treats as one, cut off by its length, so that a lexeme and what
is left after it always make up the text again. Where a slash may start a regular expression
depends on the line written so far, which is therefore an argument, with its last character first.
-/

namespace CodeTidy.Brace

/-- The family of a brace language. -/
inductive Mode where
  | script
  | style (lineComments : Bool)
  | data
deriving DecidableEq

/-- Do two slashes start a comment? -/
def Mode.hasLineComments : Mode → Bool
  | .script => true
  | .style lineComments => lineComments
  | .data => false

/-- What stands behind a closing bracket: a mark that stays on its line, a word that does, or
anything else. -/
inductive Follow where
  | mark
  | word
  | other
deriving DecidableEq

/-- The kinds of lexemes. -/
inductive Kind where
  | lineBreak
  | regex
  | literal
  | lineComment
  | blockComment
  /-- An opening and a closing bracket with only white space between them. -/
  | emptyPair
  | opener
  /-- A closing bracket, with the white space behind it if a word follows. -/
  | closer (follow : Follow)
  | parenOpen
  | parenClose
  /-- A semicolon, and whether a comment follows on its line. -/
  | semicolon (commented : Bool)
  | comma
  /-- A colon of data and the white space behind it. -/
  | colon
  | blank
  | other
deriving DecidableEq

/-- A lexeme: its kind, its characters and what is left behind it. -/
structure Lexeme where
  kind : Kind
  raw : List Char
  rest : List Char

/-- The lexeme of `length` characters at the start of the text. -/
def Lexeme.cut (kind : Kind) (length : Nat) (text : List Char) : Lexeme :=
  ⟨kind, text.take length, text.drop length⟩

/-- The length of a string behind its opening quote, added to `n`. A backslash takes the next
character with it. A string that is not closed ends at the end of its line, or of the text if it is
a template. -/
def stringEnd (quote : Char) (n : Nat) : List Char → Nat
  | [] => n
  | ['\\'] => n + 1
  | '\\' :: _ :: rest => stringEnd quote (n + 2) rest
  | c :: rest =>
    if c == quote then n + 1
    else if c == '\n' && quote != '`' then n
    else stringEnd quote (n + 1) rest

/-- The length of a regular expression and its flags behind the opening slash, added to `n`, or
`none` if the line ends first. -/
def regexEnd? (inClass : Bool) (n : Nat) : List Char → Option Nat
  | [] => none
  | ['\\'] => none
  | '\\' :: _ :: rest => regexEnd? inClass (n + 2) rest
  | c :: rest =>
    if c == '\n' then none
    else if c == '[' then regexEnd? true (n + 1) rest
    else if c == ']' then regexEnd? false (n + 1) rest
    else if c == '/' && !inClass then
      some (n + 1 + (rest.takeWhile Text.isAsciiLetter).length)
    else regexEnd? inClass (n + 1) rest

/-- The length of a block comment behind its opening mark, added to `n`. A comment that is not
closed goes to the end of the text. -/
def blockCommentEnd (n : Nat) : List Char → Nat
  | [] => n
  | '*' :: '/' :: _ => n + 2
  | _ :: rest => blockCommentEnd (n + 1) rest

/-- Characters at the end of a line behind which an operand is expected. -/
def beforeOperand : List Char :=
  ['(', ',', '=', ':', '[', '!', '&', '|', '?', '\x7b', ';', '+', '-', '*', '%', '<', '>', '~', '^']

/-- Words behind which an operand is expected. -/
def operandWords : List String :=
  ["return", "typeof", "case", "do", "else", "in", "of", "delete", "void", "throw", "yield",
    "await"]

/-- A character of a name in a script. -/
def isNameChar (c : Char) : Bool := Text.isAsciiAlphanumeric c || c == '_' || c == '$'

/-- Does a slash behind the line start a regular expression? -/
def regexAllowed (line : List Char) : Bool :=
  match line.dropWhile Text.isBlank with
  | [] => true
  | c :: before =>
    beforeOperand.contains c ||
      operandWords.contains (String.ofList ((c :: before).takeWhile isNameChar).reverse)

/-- Marks that stay on the line of a closing bracket. -/
def attachedMarks : List Char := [';', ',', ')', ']', '.', '(']

/-- Words that stay on the line of a closing bracket. -/
def joinedWords : List String := ["else", "catch", "finally", "while"]

/-- What follows a closing bracket. -/
def followOf (rest : List Char) : Follow :=
  match rest.dropWhile Text.isBlank with
  | [] => .other
  | c :: r =>
    if attachedMarks.contains c then .mark
    else if joinedWords.contains (String.ofList ((c :: r).takeWhile Text.isAsciiLetter)) then .word
    else .other

/-- Does a comment of two slashes follow on the line? -/
def commentFollows (rest : List Char) : Bool :=
  match rest.dropWhile (fun c => c == ' ' || c == '\t') with
  | '/' :: '/' :: _ => true
  | _ => false

/-- The number of white space characters at the start of the text. -/
def blankLength (text : List Char) : Nat := (text.takeWhile Text.isBlank).length

/-- The bracket that closes an opening one. -/
def closing (c : Char) : Char := if c == '\x7b' then '\x7d' else ']'

/-- The kind and the length of the lexeme that starts with `c`, where `rest` stands behind `c` and
`line` has been written in front of it. -/
def measure (mode : Mode) (line : List Char) (c : Char) (rest : List Char) : Kind × Nat :=
  let slashed := c == '/' && mode == .script && regexAllowed line
    && !(match rest with
      | '/' :: _ => true
      | '*' :: _ => true
      | _ => false)
  match if slashed then regexEnd? false 1 rest else none with
  | some n => (.regex, n)
  | none =>
    if c == '\n' then (.lineBreak, 1)
    else if c == '"' || c == '\'' || (c == '`' && mode == .script) then
      (.literal, stringEnd c 1 rest)
    else if c == '/' && mode.hasLineComments && rest.head? == some '/' then
      (.lineComment, 1 + (rest.takeWhile (· != '\n')).length)
    else if c == '/' && rest.head? == some '*' then
      (.blockComment, blockCommentEnd 2 (rest.drop 1))
    else if c == '\x7b' || (c == '[' && mode == .data) then
      if (rest.dropWhile Text.isBlank).head? == some (closing c) then
        (.emptyPair, blankLength rest + 2)
      else (.opener, 1)
    else if c == '\x7d' || (c == ']' && mode == .data) then
      let follow := followOf rest
      (.closer follow, if follow == .word then 1 + blankLength rest else 1)
    else if c == '(' || c == '[' then (.parenOpen, 1)
    else if c == ')' || c == ']' then (.parenClose, 1)
    else if c == ';' then (.semicolon (commentFollows rest), 1)
    else if c == ',' then (.comma, 1)
    else if c == ':' && mode == .data then (.colon, 1 + blankLength rest)
    else if Text.isBlank c then (.blank, 1)
    else (.other, 1)

/-- The next lexeme of a text that starts with `c`. -/
def Lexeme.next (mode : Mode) (line : List Char) (c : Char) (rest : List Char) : Lexeme :=
  let (kind, length) := measure mode line c rest
  .cut kind length (c :: rest)

end CodeTidy.Brace
