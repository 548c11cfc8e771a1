import CodeTidy.Text.Blank
import CodeTidy.Text.Letter

/-!
# Tokens of SQL

A text is cut into words, literals, comments, punctuation and operators. White space only divides
tokens. A quoted literal ends at its quote, where a doubled quote stands for the quote itself. The
only texts without tokens are those in which a quoted literal or a block comment is left open.
-/

namespace CodeTidy.Sql

/-- A token, with its characters. -/
inductive Token where
  | word (text : List Char)
  | literal (text : List Char)
  /-- A comment that goes to the end of its line. -/
  | lineComment (text : List Char)
  | blockComment (text : List Char)
  | punct (c : Char)
  | operator (text : List Char)
deriving DecidableEq

/-- Why a text has no tokens. -/
inductive Fault where
  | openComment
  | openQuote (quote : Char)
deriving DecidableEq

/-- The fault in words. -/
def Fault.message : Fault → String
  | .openComment => "Unterminated block comment"
  | .openQuote q => "Unterminated " ++ q.toString ++ " quote"

/-- The words that settings on keywords apply to. -/
def keywords : List String :=
  ["ALL", "ALTER", "AND", "AS", "ASC", "BETWEEN", "BY", "CASE", "CREATE", "CROSS", "DEFAULT",
    "DELETE", "DESC", "DISTINCT", "DROP", "ELSE", "END", "EXISTS", "FALSE", "FROM", "FULL",
    "GROUP", "HAVING", "IN", "INDEX", "INNER", "INSERT", "INTO", "IS", "JOIN", "KEY", "LEFT",
    "LIKE", "LIMIT", "NOT", "NULL", "OFFSET", "ON", "OR", "ORDER", "OUTER", "PRIMARY",
    "REFERENCES", "RETURNING", "RIGHT", "SELECT", "SET", "TABLE", "THEN", "TRUE", "UNION",
    "UNIQUE", "UPDATE", "USING", "VALUES", "WHEN", "WHERE", "WITH"]

namespace Token

/-- The characters of a token. -/
def text : Token → List Char
  | .word t => t
  | .literal t => t
  | .lineComment t => t
  | .blockComment t => t
  | .punct c => [c]
  | .operator t => t

/-- The keyword that a token is, in upper case. -/
def keyword? : Token → Option String
  | .word t =>
    let upper := String.ofList (t.map Text.upperAscii)
    if keywords.contains upper then some upper else none
  | _ => none

/-- Is the token a keyword? -/
def isKeyword (t : Token) : Bool := t.keyword?.isSome

/-- Cuts a text behind the first `*/`. The first part is reversed and put in front of `acc`. -/
def cutComment (acc : List Char) : List Char → Option (List Char × List Char)
  | '*' :: '/' :: rest => some ('/' :: '*' :: acc, rest)
  | c :: rest => cutComment (c :: acc) rest
  | [] => none

/-- Cuts a text behind the quote `q` that closes a literal. The first part is reversed and put in
front of `acc`. -/
def cutQuoted (q : Char) (acc : List Char) : List Char → Option (List Char × List Char)
  | c :: d :: rest =>
    if c == q then
      if d == q then cutQuoted q (d :: c :: acc) rest else some (c :: acc, d :: rest)
    else cutQuoted q (c :: acc) (d :: rest)
  | [c] => if c == q then some (c :: acc, []) else none
  | [] => none

/-- Does a character start a word? -/
def startsWord (c : Char) : Bool := Text.isAlphabetic c || c == '_' || c == '@'

/-- Does a character go on with a word? -/
def continuesWord (c : Char) : Bool := Text.isAlphanumeric c || c == '_' || c == '$'

/-- Does a character go on with a number? -/
def continuesNumber (c : Char) : Bool := Text.isAsciiAlphanumeric c || c == '.'

/-- The punctuation, each character a token of its own. -/
def punctuation : List Char := [',', ';', '(', ')', '.']

/-- The characters that open a quoted literal. -/
def quotes : List Char := ['\'', '"', '\x60']

/-- The characters that go on with an operator. Any other character can start one. -/
def operatorTail : List Char := ['<', '>', '=', '!', '|', '&', ':', '~', '^', '%']

/-- The token that starts with `c`, and what follows it. White space is no token. -/
def next (c : Char) (rest : List Char) : Except Fault (Option Token × List Char) :=
  if Text.isBlank c then .ok (none, rest)
  else if c == '-' && rest.head? == some '-' then
    let text := (c :: rest).takeWhile (· != '\n')
    .ok (some (.lineComment (Text.trimEnd text)), rest.dropWhile (· != '\n'))
  else if c == '/' && rest.head? == some '*' then
    match cutComment ['*', '/'] rest.tail with
    | some (text, rest) => .ok (some (.blockComment text.reverse), rest)
    | none => .error .openComment
  else if quotes.contains c then
    match cutQuoted c [c] rest with
    | some (text, rest) => .ok (some (.literal text.reverse), rest)
    | none => .error (.openQuote c)
  else if Text.isAsciiDigit c then
    .ok (some (.literal (c :: rest.takeWhile continuesNumber)), rest.dropWhile continuesNumber)
  else if startsWord c then
    .ok (some (.word (c :: rest.takeWhile continuesWord)), rest.dropWhile continuesWord)
  else if punctuation.contains c then .ok (some (.punct c), rest)
  else
    .ok (some (.operator (c :: rest.takeWhile operatorTail.contains)),
      rest.dropWhile operatorTail.contains)

/-- Reads the tokens of a text and puts them, reversed, in front of `acc`. Each takes at least one
character, so the length of the text is enough fuel. -/
def read : Nat → List Token → List Char → Except Fault (List Token)
  | 0, acc, _ => .ok acc
  | _ + 1, acc, [] => .ok acc
  | fuel + 1, acc, c :: rest =>
    match next c rest with
    | .error f => .error f
    | .ok (none, rest) => read fuel acc rest
    | .ok (some t, rest) => read fuel (t :: acc) rest

/-- The tokens of a text. -/
def ofText (s : List Char) : Except Fault (List Token) := do
  return (← read s.length [] s).reverse

end Token

end CodeTidy.Sql
