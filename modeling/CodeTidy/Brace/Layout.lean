import CodeTidy.Brace.Lexeme
import CodeTidy.Settings.Basic

/-!
# Layout of brace languages

The layout puts each statement, rule and entry on a line of its own, indented by the braces around
it. It never rejects a text. It changes white space only, with two exceptions: a statement that
ends a block gets its semicolon, and the quotes of a script's string become the preferred ones if
nothing in the string needs escaping then.
-/

namespace CodeTidy.Brace

/-- What a brace encloses: statements or rules, or the entries of a literal. -/
inductive Enclosure where
  | statements
  | literal
deriving DecidableEq

/-- An open brace: what it encloses, and how many parentheses were open in front of it. -/
structure Frame where
  enclosure : Enclosure
  outerParens : Nat
deriving DecidableEq

/-- What the layout is asked for. -/
structure Config where
  mode : Mode
  unit : List Char
  semi : Bool
  quoteStyle : QuoteStyle

/-- The state of the layout. Finished lines and the characters of the current line are held with
the last first. -/
structure State where
  done : List (List Char) := []
  line : List Char := []
  depth : Nat := 0
  blankPending : Bool := false
  frames : List Frame := []
  parens : Nat := 0
  /-- Line breaks since the last character that is not white space. -/
  breaks : Nat := 0

namespace State

/-- Writes a character on the current line. -/
def put (st : State) (c : Char) : State := { st with line := c :: st.line }

/-- Writes a text on the current line. -/
def write (st : State) (text : List Char) : State := { st with line := text.reverse ++ st.line }

/-- Writes a blank unless the line is empty or ends in one. -/
def space (st : State) : State :=
  match st.line with
  | [] => st
  | ' ' :: _ => st
  | _ => st.put ' '

/-- Finishes the current line, if anything but white space is on it. A blank line that is pending
goes in front of it, though never to the top. -/
def flush (unit : List Char) (st : State) : State :=
  let text := Text.trim st.line.reverse
  if text.isEmpty then { st with line := [] }
  else
    let indented := (List.replicate st.depth unit).flatten ++ text
    let above := if st.blankPending && !st.done.isEmpty then [] :: st.done else st.done
    { st with done := indented :: above, line := [], blankPending := false }

/-- The text written, the current line included. -/
def finish (unit : List Char) (st : State) : List Char :=
  ((st.flush unit).done.reverse.map (· ++ ['\n'])).flatten

end State

/-- Characters at the end of a line that no semicolon follows. -/
def beforeNoSemicolon : List Char :=
  [';', ',', '\x7b', '\x7d', '(', '[', ':', '+', '-', '*', '/', '=', '&', '|', '?', '<', '>', '!']

/-- Is the last statement on the line without its terminator? -/
def needsSemicolon (line : List Char) : Bool :=
  let text := Text.trim line.reverse
  !(text.isEmpty || ['/', '/'].isPrefixOf text || ['/', '*'].isPrefixOf text
    || ['*', '/'].isSuffixOf text || Text.endsIn beforeNoSemicolon text)

/-- Characters at the start of a line that continue the statement in front of it. -/
def continuations : List Char :=
  [')', ']', '\x7d', ',', '.', '?', ':', '+', '-', '*', '/', '%', '=', '&', '|', '<', '>']

/-- Does a line break inside parentheses end the statement? It does if the line ends in an operand
and the next line does not go on with it. -/
def endsStatement (line rest : List Char) : Bool :=
  needsSemicolon line &&
    match rest.dropWhile Text.isBlank with
    | c :: _ => !continuations.contains c
    | [] => true

/-- Characters at the end of a line behind which a brace opens a literal. -/
def beforeLiteral : List Char := ['=', '(', ',', ':', '[', '?', '|', '&']

/-- Does a brace behind the line open a literal rather than a block? -/
def opensLiteral (line : List Char) : Bool :=
  match line.dropWhile Text.isBlank with
  | '>' :: '=' :: _ => false
  | text => (match text with
    | c :: _ => beforeLiteral.contains c
    | [] => false) || "return".toList.reverse.isPrefixOf text

/-- A string with the preferred quotes, if its own are the other ones and nothing inside would
need escaping. -/
def requote (style : QuoteStyle) (literal : List Char) : List Char :=
  let (fromQuote, toQuote) := match style with
    | .single => ('"', '\'')
    | .double => ('\'', '"')
  match literal with
  | first :: rest =>
    if first == fromQuote && rest.getLast? == some fromQuote then
      let inner := rest.dropLast
      if inner.contains toQuote || inner.contains '\\' then literal
      else toQuote :: inner ++ [toQuote]
    else literal
  | [] => []

/-- Writes the lines of a block comment, each trimmed and all but the last finished. -/
def writeComment (unit : List Char) (st : State) : List (List Char) → State
  | [] => st
  | part :: parts =>
    let part := Text.trim part
    let st := if part.head? == some '*' && st.line.isEmpty then st.put ' ' else st.space
    let st := st.write part
    match parts with
    | [] => st
    | _ => writeComment unit (st.flush unit) parts

namespace State

/-- Lays out a line break. Outside of data it ends the line unless a parenthesis is open. A
parenthesis that a finished statement has left open is taken for a stray. -/
def lineBreak (cfg : Config) (rest : List Char) (st : State) : State :=
  let breaks := st.breaks + 1
  let st := { st with
    breaks
    blankPending := if breaks == 2 then !st.done.isEmpty else st.blankPending
    parens := if cfg.mode == Mode.script && 0 < st.parens && endsStatement st.line rest then 0
      else st.parens }
  if cfg.mode != .data && st.parens == 0 then st.flush cfg.unit else st.space

/-- Lays out an opening brace: the line ends behind it, and what follows is one level deeper. -/
def openBrace (cfg : Config) (raw : List Char) (st : State) : State :=
  let enclosure := if cfg.mode == .data || (cfg.mode == .script && opensLiteral st.line) then
    Enclosure.literal else .statements
  let st := if raw == ['\x7b'] && cfg.mode != .data then st.space else st
  let st := (st.write raw).flush cfg.unit
  { st with depth := st.depth + 1, frames := ⟨enclosure, st.parens⟩ :: st.frames, parens := 0 }

/-- Lays out a closing brace: it starts a line one level up, behind the semicolon that the last
statement may lack. -/
def closeBrace (cfg : Config) (c : Char) (follow : Follow) (st : State) : State :=
  let frame := st.frames.head?
  let wanted := match cfg.mode with
    | .script => cfg.semi && frame.all (·.enclosure == .statements)
    | .style _ => true
    | .data => false
  let st := if wanted && needsSemicolon st.line then st.put ';' else st
  let st := st.flush cfg.unit
  let st := { st with
    depth := st.depth - 1
    frames := st.frames.tail
    parens := (frame.map Frame.outerParens).getD 0 }
  let st := st.put c
  match follow with
  | .mark => st
  | .word => st.put ' '
  | .other => st.flush cfg.unit

/-- Lays out one lexeme. -/
def step (cfg : Config) (st : State) (x : Lexeme) : State :=
  let st := if x.raw.all Text.isBlank then st else { st with breaks := 0 }
  match x.kind with
  | .lineBreak => st.lineBreak cfg x.rest
  | .regex => st.write x.raw
  | .literal => st.write (if cfg.mode == .script then requote cfg.quoteStyle x.raw else x.raw)
  | .lineComment => (st.space.write (Text.trimEnd x.raw)).flush cfg.unit
  | .blockComment => writeComment cfg.unit st (Text.splitOn (· == '\n') x.raw)
  | .emptyPair =>
    let st := if x.raw.head? == some '\x7b' then st.space else st
    st.write (x.raw.filter (!Text.isBlank ·))
  | .opener => st.openBrace cfg x.raw
  | .closer follow =>
    match x.raw with
    | c :: _ => st.closeBrace cfg c follow
    | [] => st
  | .parenOpen => { st.write x.raw with parens := st.parens + 1 }
  | .parenClose => { st.write x.raw with parens := st.parens - 1 }
  | .semicolon commented =>
    let st := st.put ';'
    if st.parens == 0 && !commented then st.flush cfg.unit else st
  | .comma =>
    let st := st.put ','
    let inLiteral := st.frames.head?.any (·.enclosure == .literal)
    if inLiteral && st.parens == 0 then st.flush cfg.unit else st
  | .colon => st.write [':', ' ']
  | .blank => st.space
  | .other => st.write x.raw

/-- Lays out a text. Each lexeme takes at least one character, so the length of the text is enough
fuel. -/
def run (cfg : Config) : Nat → State → List Char → State
  | 0, st, _ => st
  | _ + 1, st, [] => st
  | fuel + 1, st, c :: rest =>
    let x := Lexeme.next cfg.mode st.line c rest
    run cfg fuel (st.step cfg x) x.rest

end State

/-- The text laid out. -/
def layout (cfg : Config) (text : List Char) : List Char :=
  (State.run cfg text.length {} text).finish cfg.unit

/-- The text of a brace language laid out by settings. -/
def beautify (settings : Settings) (mode : Mode) (text : List Char) : List Char :=
  layout ⟨mode, settings.indentUnit, settings.semi, settings.quoteStyle⟩ text

end CodeTidy.Brace
