import CodeTidy.Text.Blank
import CodeTidy.Text.Letter
import CodeTidy.Whitespace.Lexicon

/-!
# Scanning lines

A line is scanned from the state in which the line in front of it ends. The scan tells how many
more brackets the line opens than it closes, with literals and comments left aside, and the state
in which the line ends.
-/

namespace CodeTidy.Whitespace

/-- Where a line leaves off, and so where the next one starts. -/
inductive Carry where
  | code
  | blockComment
  | literal (d : Delimiter)
deriving DecidableEq

/-- Is the state inside a literal? -/
def Carry.isLiteral : Carry → Bool
  | .literal _ => true
  | _ => false

/-- Does the mark of a literal open one here? A mark that starts with a letter or an at sign must
not go on a name in front of it. -/
def Delimiter.opensAt (before : Option Char) (s : List Char) (d : Delimiter) : Bool :=
  d.opening.isPrefixOf s &&
    !((match d.opening with
      | c :: _ => isAlphanumeric c || c == '@'
      | [] => false) && before.any fun b => isAlphanumeric b || b == '_')
where
  /-- A letter or a number. -/
  isAlphanumeric (c : Char) : Bool := Text.isAlphanumeric c

/-- Does the mark of a comment start one here? A hash sign does so only at the start of a line or
behind white space. -/
def commentAt (before : Option Char) (s mark : List Char) : Bool :=
  mark.isPrefixOf s && (mark != ['#'] || before.all Text.isBlank)

/-- The length of a literal of one character at the start of the text, or one if the quote there
starts none. -/
def charLiteralLength (s : List Char) : Nat :=
  match s with
  | _ :: '\\' :: _ :: rest =>
    match rest.findIdx? (· == '\'') with
    | some n => n + 4
    | none => s.length
  | _ :: '\\' :: _ => s.length
  | _ :: _ :: '\'' :: _ => 3
  | _ => 1

/-- How one bracket changes the depth. -/
def bracketDelta (c : Char) : Int :=
  if c == '(' || c == '[' || c == '\x7b' then 1
  else if c == ')' || c == ']' || c == '\x7d' then -1
  else 0

/-- What one step of the scan does: it takes some characters, changes the depth and goes on in a
state, or it stops at a comment. -/
inductive Move where
  | take (length : Nat) (delta : Int) (next : Carry)
  | stop

/-- The step at a place where `c :: rest` comes next behind `before`. -/
def move (lex : Lexicon) (state : Carry) (before : Option Char) (c : Char) (rest : List Char) :
    Move :=
  let s := c :: rest
  match state with
  | .blockComment => if "*/".toList.isPrefixOf s then .take 2 0 .code else .take 1 0 state
  | .literal d =>
    if !d.raw && c == '\\' then .take 2 0 state
    else if d.closing.isPrefixOf s then
      let n := d.closing.length
      if d.raw && d.closing.isPrefixOf (s.drop n) then .take (2 * n) 0 state else .take n 0 .code
    else .take 1 0 state
  | .code =>
    if lex.lineComments.any (commentAt before s) then .stop
    else if lex.blockComments && "/*".toList.isPrefixOf s then .take 2 0 .blockComment
    else if lex.charLiterals && c == '\'' then .take (charLiteralLength s) 0 state
    else
      match lex.delimiters.find? (·.opensAt before s) with
      | some d => .take d.opening.length 0 (.literal d)
      | none => .take 1 (bracketDelta c) state

/-- Scans what is left of a line, with at most `fuel` steps. -/
def scanFrom (lex : Lexicon) : Nat → Carry → Option Char → Int → List Char → Int × Carry
  | 0, state, _, delta, _ => (delta, state)
  | _ + 1, state, _, delta, [] => (delta, state)
  | fuel + 1, state, before, delta, c :: rest =>
    match move lex state before c rest with
    | .stop => (delta, state)
    | .take n d next =>
      let s := c :: rest
      scanFrom lex fuel next ((s.take n).getLast?.or before) (delta + d) (s.drop n)

/-- The state in which the next line starts. A literal that may not go on over the end of a line
ends with it. -/
def Carry.atLineEnd : Carry → Carry
  | .literal d => if d.multiline then .literal d else .code
  | state => state

/-- The change of depth over a line and the state behind it. Each step takes at least one
character. -/
def scanLine (lex : Lexicon) (start : Carry) (line : List Char) : Int × Carry :=
  let (delta, state) := scanFrom lex line.length start none 0 line
  (delta, state.atLineEnd)

end CodeTidy.Whitespace
