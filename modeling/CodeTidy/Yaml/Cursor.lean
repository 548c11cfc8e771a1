/-!
# Places in a YAML text

A cursor is what is left of a text together with the place where that begins. Lines end in a break,
which is one of five: the carriage return and the line feed, alone and together, the next line, the
line separator and the paragraph separator. A gap is a run of blanks and breaks inside of a scalar;
`folded` tells which text it stands for.
-/

namespace CodeTidy.Yaml

/-- The line separator and the paragraph separator, which stand for themselves. -/
def isSeparator (c : Char) : Bool := c == '\u2028' || c == '\u2029'

/-- A character that ends a line. -/
def isBreak (c : Char) : Bool := c == '\n' || c == '\r' || c == '\u0085' || isSeparator c

/-- White space within a line. -/
def isSpace (c : Char) : Bool := c == ' ' || c == '\t'

/-- White space within a line or at its end. -/
def isGap (c : Char) : Bool := isSpace c || isBreak c

/-- Is there white space at the start of the text, or nothing at all? -/
def atGap (s : List Char) : Bool :=
  match s with
  | [] => true
  | c :: _ => isGap c

/-- A character that may be written in a YAML text. -/
def isAllowed (c : Char) : Bool :=
  let n := c.toNat
  n == 0x9 || n == 0xa || n == 0xd || (0x20 ≤ n && n ≤ 0x7e) || n == 0x85
    || (0xa0 ≤ n && n != 0xfffe && n != 0xffff)

/-- The breaks among some characters. All but the separators stand for a line feed. -/
def breaks : List Char → List Char
  | [] => []
  | '\r' :: '\n' :: s => '\n' :: breaks s
  | c :: s =>
    if isSeparator c then c :: breaks s
    else if isBreak c then '\n' :: breaks s
    else breaks s

/-- The text that a gap stands for. Without a break it is the gap itself. One line feed stands for a
space and each further one for itself, unless a separator comes first. -/
def folded (gap : List Char) : List Char :=
  match breaks gap with
  | [] => gap
  | ['\n'] => [' ']
  | '\n' :: more => more
  | all => all

/-- What is left of a text: the number of characters, and of lines, in front of it, and the number
of characters in front of it on its line. -/
structure Cursor where
  rest : List Char
  index : Nat
  line : Nat
  column : Nat

namespace Cursor

/-- The start of a text. -/
def start (s : List Char) : Cursor := ⟨s, 0, 0, 0⟩

/-- What is left behind the next character. A carriage return in front of a line feed does not yet
end the line. -/
def next (c : Cursor) : Cursor :=
  match c.rest with
  | [] => c
  | x :: rest =>
    if isBreak x && !(x == '\r' && rest.head? == some '\n') then
      ⟨rest, c.index + 1, c.line + 1, 0⟩
    else ⟨rest, c.index + 1, c.line, c.column + 1⟩

/-- What is left behind the next `n` characters. -/
def drop : Nat → Cursor → Cursor
  | 0, c => c
  | n + 1, c => drop n c.next

/-- The characters that satisfy `p` up to the first that does not, and what is left behind
them. -/
def takeWhile (p : Char → Bool) (c : Cursor) : List Char × Cursor :=
  let taken := c.rest.takeWhile p
  (taken, c.drop taken.length)

/-- What is left behind characters that satisfy `p`. -/
def skip (p : Char → Bool) (c : Cursor) : Cursor := (c.takeWhile p).2

/-- The break that comes next, if one does, and what is left behind it. -/
def takeBreak (c : Cursor) : List Char × Cursor :=
  match c.rest with
  | '\r' :: '\n' :: _ => (['\n'], c.drop 2)
  | x :: _ => if isBreak x then (breaks [x], c.next) else ([], c)
  | [] => ([], c)

/-- What is left behind a comment, if there is one. -/
def skipComment (c : Cursor) : Cursor :=
  match c.rest with
  | '#' :: _ => c.skip (!isBreak ·)
  | _ => c

/-- Is there a line that starts with `mark`, and then with white space? -/
def startsLine (mark : List Char) (c : Cursor) : Bool :=
  c.column == 0 && mark.isPrefixOf c.rest && atGap (c.rest.drop mark.length)

/-- Is there a line that starts or ends a document? -/
def atMarker (c : Cursor) : Bool := c.startsLine ['-', '-', '-'] || c.startsLine ['.', '.', '.']

end Cursor

end CodeTidy.Yaml
