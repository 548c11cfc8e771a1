import CodeTidy.Whitespace.Scan

/-!
# Tidying white space

The least that can be done for any language: no token moves to another line. Languages of brackets
have their lines indented by depth, all others only lose white space at the ends of lines. Blank
lines at the start and the end of a text go, and a run of blank lines becomes one. A line that
starts inside a literal stays as it is.
-/

namespace CodeTidy.Whitespace

/-- A line of the result. A verbatim line is kept even if it is empty. -/
structure Line where
  text : List Char
  verbatim : Bool
deriving DecidableEq

/-- The depth and the state behind the lines so far. -/
structure Progress where
  depth : Nat := 0
  carry : Carry := .code

/-- Treats each line in the progress behind the lines in front of it. -/
def mapLines (f : Progress → List Char → Line × Progress) : Progress → List (List Char) → List Line
  | st, lines => go st [] lines
where
  /-- Treats lines and puts them in front of those in `done`, which are reversed. -/
  go (st : Progress) (done : List Line) : List (List Char) → List Line
    | [] => done.reverse
    | l :: ls =>
      let (line, st) := f st l
      go st (line :: done) ls

/-- Takes white space off the end of a line that neither starts nor ends inside a literal. -/
def cleanLine (lex : Option Lexicon) (st : Progress) (raw : List Char) : Line × Progress :=
  match lex with
  | none => (⟨Text.trimEnd raw, false⟩, st)
  | some lex =>
    let (_, carry) := scanLine lex st.carry raw
    let line := if st.carry.isLiteral || carry.isLiteral then ⟨raw, true⟩
      else ⟨Text.trimEnd raw, false⟩
    (line, { st with carry })

/-- The depth after a change, which never goes below zero. -/
def shiftDepth (depth : Nat) (delta : Int) : Nat := (depth + delta).toNat

/-- A text indented `depth` times. -/
def indented (unit : List Char) (depth : Nat) (text : List Char) : List Char :=
  (List.replicate depth unit).flatten ++ text

/-- Is this a closing bracket? -/
def isCloser (c : Char) : Bool := c == ')' || c == ']' || c == '\x7d'

/-- Indents a line by the depth of brackets around it, less the closing brackets it starts with. A
line inside a block comment that starts with an asterisk gets one blank more. -/
def reindentLine (unit : List Char) (lex : Lexicon) (st : Progress) (raw : List Char) :
    Line × Progress :=
  let (delta, carry) := scanLine lex st.carry raw
  let depth := shiftDepth st.depth delta
  match st.carry with
  | .literal _ => (⟨raw, true⟩, ⟨depth, carry⟩)
  | .blockComment =>
    let content := Text.trim raw
    let line := if content.isEmpty then []
      else indented unit depth (if content.head? == some '*' then ' ' :: content else content)
    (⟨line, false⟩, ⟨depth, carry⟩)
  | .code =>
    -- white space at the end of a line belongs to a literal that goes on
    let content := if carry.isLiteral then Text.trimStart raw else Text.trim raw
    if content.isEmpty then (⟨[], false⟩, ⟨st.depth, carry⟩)
    else
      let closers := (content.takeWhile isCloser).length
      (⟨indented unit (st.depth - closers) content, false⟩, ⟨depth, carry⟩)

/-- Is this a blank line that may go? -/
def Line.isSpare (l : Line) : Bool := !l.verbatim && l.text.isEmpty

/-- Drops spare lines at the top and behind an empty line. -/
def dropRuns (lines : List Line) : List Line := go [] lines
where
  /-- Goes through lines, with the ones kept in `done`, the last first. -/
  go (done : List Line) : List Line → List Line
    | [] => done.reverse
    | l :: ls =>
      let afterEmpty := match done with
        | [] => true
        | prev :: _ => prev.text.isEmpty
      if l.isSpare && afterEmpty then go done ls else go (l :: done) ls

/-- Drops spare lines: runs of them, and those at the end. -/
def finish (lines : List Line) : List (List Char) :=
  ((dropRuns lines).reverse.dropWhile Line.isSpare).reverse.map (·.text)

/-- The lines of a text after tidying. -/
def tidyLines (unit : List Char) (language : String) (lines : List (List Char)) :
    List (List Char) :=
  match Lexicon.ofLanguage? language with
  | some lex =>
    if braceLanguages.contains language then finish (mapLines (reindentLine unit lex) {} lines)
    else finish (mapLines (cleanLine (some lex)) {} lines)
  | none => finish (mapLines (cleanLine none) {} lines)

/-- A text tidied, with a line feed behind each line. -/
def tidy (unit : List Char) (language : String) (text : List Char) : List Char :=
  ((tidyLines unit language (Text.lines text)).map (· ++ ['\n'])).flatten

end CodeTidy.Whitespace
