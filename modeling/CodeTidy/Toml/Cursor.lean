import CodeTidy.Text.Blank

/-!
# Places in a TOML text

A cursor is what is left of a text together with the number of bytes in front of it. It passes
over white space, comments and line feeds.
-/

namespace CodeTidy.Toml

/-- What is left of a text, and the number of bytes in front of it. -/
structure Cursor where
  offset : Nat
  rest : List Char

/-- Control characters other than the tab, which may not be written out. -/
def isControl (c : Char) : Bool := (c.toNat < 0x20 && c != '\t') || c.toNat == 0x7f

/-- White space within a line. -/
def isSpace (c : Char) : Bool := c == ' ' || c == '\t'

namespace Cursor

/-- The next character and what is left behind it. -/
def next? (c : Cursor) : Option (Char × Cursor) :=
  match c.rest with
  | x :: rest => some (x, ⟨c.offset + x.utf8Size, rest⟩)
  | [] => none

/-- The characters that satisfy `p` up to the first that does not, and what is left behind
them. -/
def takeWhile (p : Char → Bool) (c : Cursor) : List Char × Cursor :=
  let taken := c.rest.takeWhile p
  (taken, ⟨c.offset + Text.byteLength taken, c.rest.dropWhile p⟩)

/-- What is left behind characters that satisfy `p`. -/
def skip (p : Char → Bool) (c : Cursor) : Cursor := (c.takeWhile p).2

/-- What is left behind the white space of the line. -/
def skipSpace (c : Cursor) : Cursor := c.skip isSpace

/-- What is left behind the character `x`. -/
def expect (x : Char) (c : Cursor) : Option Cursor :=
  match c.next? with
  | some (y, d) => if x == y then some d else none
  | none => none

/-- What is left behind a line feed, with or without a carriage return in front of it. -/
def newline? (c : Cursor) : Option Cursor :=
  match c.rest with
  | '\n' :: rest => some ⟨c.offset + 1, rest⟩
  | '\r' :: '\n' :: rest => some ⟨c.offset + 2, rest⟩
  | _ => none

/-- What is left behind a comment, if there is one. Comments hold no control characters. -/
def skipComment (c : Cursor) : Cursor :=
  match c.rest with
  | '#' :: _ => c.skip (!isControl ·)
  | _ => c

/-- What is left behind the line, of which only white space and a comment may be left. -/
def endLine? (c : Cursor) : Option Cursor :=
  let c := c.skipSpace.skipComment
  if c.rest.isEmpty then some c else c.newline?

/-- What is left behind white space, line feeds and comments. Each step takes a line, so the
length of what is left is enough fuel. -/
def skipLines : Nat → Cursor → Cursor
  | 0, c => c
  | fuel + 1, c =>
    let c := c.skipSpace.skipComment
    match c.newline? with
    | some c => skipLines fuel c
    | none => c

/-- What is left behind all blank lines. -/
def skipBlankLines (c : Cursor) : Cursor := c.skipLines (c.rest.length + 1)

end Cursor

end CodeTidy.Toml
