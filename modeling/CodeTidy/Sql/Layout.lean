import CodeTidy.Settings.Basic
import CodeTidy.Sql.Token

/-!
# Layout of SQL

A clause starts a line of its own at the margin, and what belongs to it follows one level deeper.
The items of a list get a line each, with the comma behind the item or in front of it. Whatever
stands in parentheses stays on its line.
-/

namespace CodeTidy.Sql

/-- The phrases that open a clause. A phrase stands in front of the phrases that it starts
with. -/
def clauses : List (List String) :=
  [["LEFT", "OUTER", "JOIN"], ["RIGHT", "OUTER", "JOIN"], ["FULL", "OUTER", "JOIN"],
    ["GROUP", "BY"], ["ORDER", "BY"], ["UNION", "ALL"], ["INSERT", "INTO"], ["DELETE", "FROM"],
    ["LEFT", "JOIN"], ["RIGHT", "JOIN"], ["INNER", "JOIN"], ["FULL", "JOIN"], ["CROSS", "JOIN"],
    ["SELECT"], ["FROM"], ["WHERE"], ["HAVING"], ["LIMIT"], ["OFFSET"], ["UNION"], ["VALUES"],
    ["UPDATE"], ["SET"], ["JOIN"], ["RETURNING"], ["WITH"]]

/-- Do the tokens start with the words of a phrase, in whatever case? -/
def startsWith : List String → List Token → Bool
  | [], _ => true
  | w :: ws, .word t :: ts => Text.eqIgnoringAsciiCase t w.toList && startsWith ws ts
  | _ :: _, _ => false

/-- The number of tokens of the clause phrase that the tokens start with, or zero without one. -/
def clauseLength (ts : List Token) : Nat :=
  match clauses.find? (startsWith · ts) with
  | some phrase => phrase.length
  | none => 0

/-- A word in the wanted case. -/
def cased (wanted : KeywordCase) (word : List Char) : List Char :=
  match wanted with
  | .preserve => word
  | .upper => word.map Text.upperAscii
  | .lower => word.map Text.lowerAscii

/-- A token as it is written, keywords in the wanted case. -/
def written (wanted : KeywordCase) (t : Token) : List Char :=
  if t.isKeyword then cased wanted t.text else t.text

/-- What the layout is asked for. -/
structure Config where
  unit : List Char
  keywordCase : KeywordCase
  commaPosition : CommaPosition

/-- The state of the layout. Finished lines and the characters of the current line are held with
the last first. -/
structure State where
  done : List (List Char) := []
  line : List Char := []
  /-- Is the current line one level deeper than a clause? -/
  indented : Bool := false
  /-- Does the next token follow without a blank? -/
  glued : Bool := false
  /-- Open parentheses. -/
  depth : Nat := 0
  /-- Is a `BETWEEN` still without its `AND`? -/
  betweenOpen : Bool := false
  /-- Does another statement follow the one just finished? -/
  ended : Bool := false
  prev : Option Token := none

namespace State

/-- Finishes the current line, if anything is on it. -/
def flush (unit : List Char) (st : State) : State :=
  let text := st.line.dropWhile Text.isBlank
  if text.isEmpty then { st with line := [] }
  else
    let line := (if st.indented then unit else []) ++ text.reverse
    { st with done := line :: st.done, line := [] }

/-- Writes a text on the current line, behind a blank if one is wanted and has something to
divide. -/
def write (text : List Char) (spaced : Bool) (st : State) : State :=
  let line := if spaced && !st.glued && !st.line.isEmpty then ' ' :: st.line else st.line
  { st with line := text.reverse ++ line, glued := false }

/-- Does a token that is no punctuation follow its predecessor behind a blank? -/
def spaced (st : State) : Bool :=
  st.prev != some (.punct '(') && st.prev != some (.punct '.')

/-- Is a sign here one of a single operand? -/
def expectsOperand (st : State) : Bool :=
  match st.prev with
  | none => true
  | some (.operator _) => true
  | some (.punct c) => c == '(' || c == ','
  | some t => t.isKeyword

/-- Lays out a word. `AND` and `OR` start a line unless they stand in parentheses or complete a
`BETWEEN`. -/
def word (cfg : Config) (t : Token) (st : State) : State :=
  let key := t.keyword?
  let st := if st.depth == 0 && (key == some "AND" || key == some "OR") && !st.betweenOpen then
    st.flush cfg.unit else st
  let betweenOpen := if key == some "BETWEEN" then true
    else if key == some "AND" then false
    else st.betweenOpen
  let st := { st with betweenOpen }
  st.write (written cfg.keywordCase t) st.spaced

/-- Lays out a comma that divides the items of a list. -/
def comma (cfg : Config) (st : State) : State :=
  match cfg.commaPosition with
  | .after => (st.write [','] false).flush cfg.unit
  | .before => (st.flush cfg.unit).write [','] false

/-- Lays out punctuation. `more` tells whether tokens follow. A parenthesis hugs the name of a
function in front of it. -/
def punct (cfg : Config) (c : Char) (more : Bool) (st : State) : State :=
  if c == ',' && st.depth == 0 then st.comma cfg
  else if c == ';' then
    { (st.write [c] false).flush cfg.unit with depth := 0, ended := more }
  else if c == '(' then
    let call := match st.prev with
      | some (.word t) => !(Token.word t).isKeyword
      | _ => false
    let st := st.write [c] (!call && st.spaced)
    { st with depth := st.depth + 1 }
  else if c == ')' then
    let st := st.write [c] false
    { st with depth := st.depth - 1 }
  else { st.write [c] false with glued := c == '.' }

/-- Lays out an operator. A sign of a single operand is glued to it. -/
def operator (op : List Char) (st : State) : State :=
  let unary := (op == ['-'] || op == ['+']) && st.expectsOperand
  { st.write op st.spaced with glued := unary }

/-- Lays out a token that opens no clause. -/
def token (cfg : Config) (t : Token) (more : Bool) (st : State) : State :=
  let st := match t with
    | .word _ => st.word cfg t
    | .literal text => st.write text st.spaced
    | .lineComment text => (st.write text true).flush cfg.unit
    | .blockComment text => st.write text true
    | .punct c => st.punct cfg c more
    | .operator op => st.operator op
  { st with prev := some t }

/-- Lays out the phrase that opens a clause, on a line of its own at the margin. -/
def clause (cfg : Config) (phrase : List Token) (st : State) : State :=
  let st := { st.flush cfg.unit with indented := false }
  let text := Text.joinWith [' '] (phrase.map fun t => cased cfg.keywordCase t.text)
  let st := (st.write text false).flush cfg.unit
  { st with indented := true, prev := phrase.getLast? }

/-- Sets a blank line between two statements. -/
def startStatement (st : State) : State :=
  if st.ended then { st with done := [] :: st.done, indented := false, ended := false } else st

/-- Lays out tokens. Each step takes at least one, so their number is enough fuel. -/
def run (cfg : Config) : Nat → State → List Token → State
  | 0, st, _ => st
  | _ + 1, st, [] => st
  | fuel + 1, st, t :: ts =>
    let st := st.startStatement
    match (if st.depth == 0 then clauseLength (t :: ts) else 0) with
    | 0 => run cfg fuel (st.token cfg t (!ts.isEmpty)) ts
    | n + 1 => run cfg fuel (st.clause cfg (t :: ts.take n)) (ts.drop n)

end State

/-- The tokens laid out as a text. -/
def layout (cfg : Config) (ts : List Token) : List Char :=
  let st := (State.run cfg ts.length {} ts).flush cfg.unit
  (st.done.reverse.map (· ++ ['\n'])).flatten

/-- An SQL text laid out by settings. -/
def tidy (settings : Settings) (s : List Char) : Except Fault (List Char) := do
  let ts ← Token.ofText s
  return layout ⟨settings.indentUnit, settings.keywordCase, settings.commaPosition⟩ ts

end CodeTidy.Sql
