import CodeTidy.Decimal.Nearest
import CodeTidy.Yaml.Cursor

/-!
# Scalars of YAML

A scalar is written plainly, between quotes, or as a block of lines. Each function here takes the
text of one scalar off and fails if there is none. The functions that go through a text character
by character take fuel, for which two more than the length of the text is enough, and put what they
have read, reversed, in front of `acc`.
-/

namespace CodeTidy.Yaml

/-- Takes the text of a scalar in single quotes off, of which the first quote is passed. Two quotes
stand for one. -/
def singleQuoted : Nat → List Char → Cursor → Option (List Char × Cursor)
  | 0, _, _ => none
  | fuel + 1, acc, c =>
    if c.atMarker then none
    else
      match c.rest with
      | [] => none
      | '\'' :: '\'' :: _ => singleQuoted fuel ('\'' :: acc) (c.drop 2)
      | '\'' :: _ => some (acc.reverse, c.next)
      | x :: _ =>
        if isGap x then
          let (gap, c) := c.takeWhile isGap
          singleQuoted fuel ((folded gap).reverse ++ acc) c
        else singleQuoted fuel (x :: acc) c.next

/-- The characters that a backslash and one more character stand for. -/
def simpleEscapes : List (Char × Char) :=
  [('0', '\x00'), ('a', '\x07'), ('b', '\x08'), ('t', '\t'), ('\t', '\t'), ('n', '\n'),
    ('v', '\x0b'), ('f', '\x0c'), ('r', '\r'), ('e', '\x1b'), (' ', ' '), ('"', '"'), ('/', '/'),
    ('\\', '\\'), ('\'', '\''), ('N', '\u0085'), ('_', '\u00a0'), ('L', '\u2028'),
    ('P', '\u2029')]

/-- The numbers of digits of the escapes that give a code point. -/
def codeEscapes : List (Char × Nat) := [('x', 2), ('u', 4), ('U', 8)]

/-- The character of a code point that `n` hexadecimal digits give. -/
def codePoint? (n : Nat) (s : List Char) : Option Char := do
  let digits := s.take n
  if digits.length < n then none
  else
    let code := Decimal.ofDigits 16 (← digits.mapM (Decimal.digit? 16))
    if code.isValidChar then some (Char.ofNat code) else none

/-- Takes the text of a scalar in double quotes off, of which the first quote is passed. A break
behind a backslash is left out together with the white space that follows. -/
def doubleQuoted : Nat → List Char → Cursor → Option (List Char × Cursor)
  | 0, _, _ => none
  | fuel + 1, acc, c =>
    if c.atMarker then none
    else
      match c.rest with
      | [] => none
      | '"' :: _ => some (acc.reverse, c.next)
      | '\\' :: x :: rest =>
        if isBreak x then
          let (gap, c) := c.next.takeBreak.2.takeWhile isGap
          doubleQuoted fuel ((breaks gap).reverse ++ acc) c
        else
          match simpleEscapes.lookup x, codeEscapes.lookup x with
          | some y, _ => doubleQuoted fuel (y :: acc) (c.drop 2)
          | none, some n =>
            match codePoint? n rest with
            | some y => doubleQuoted fuel (y :: acc) (c.drop (2 + n))
            | none => none
          | none, none => none
      | x :: _ =>
        if isGap x then
          let (gap, c) := c.takeWhile isGap
          doubleQuoted fuel ((folded gap).reverse ++ acc) c
        else doubleQuoted fuel (x :: acc) c.next

/-- Is there a tab in front of column `margin` on a line of the gap? `column` is `none` on the line
on which the gap starts. -/
def tabInMargin (margin : Nat) : Option Nat → List Char → Bool
  | _, [] => false
  | column, x :: gap =>
    if isBreak x then tabInMargin margin (some 0) gap
    else
      match column with
      | none => tabInMargin margin none gap
      | some n => (x == '\t' && n < margin) || tabInMargin margin (some (n + 1)) gap

/-- Does a plain scalar end in front of the text? A colon with white space behind it ends one, and
between brackets so do a comma and a bracket. -/
def endsPlain (inFlow : Bool) : List Char → Bool
  | [] => true
  | ':' :: rest => atGap rest
  | c :: _ => inFlow && [',', '[', ']', '{', '}'].contains c

/-- Is there a colon between brackets whose role is not clear? -/
def unclearColon (inFlow : Bool) : List Char → Bool
  | ':' :: c :: _ => inFlow && [',', '?', '[', ']', '{', '}'].contains c
  | _ => false

/-- A plain scalar: its text, and whether there are breaks in the gap behind it. -/
structure Plain where
  text : List Char
  broken : Bool

/-- Takes a plain scalar off, and the gap behind it. `gap` is the text of a gap that has been passed
and `broken` whether it has breaks. Outside of brackets the scalar ends in front of a line that
starts before column `margin`. -/
def plain (inFlow : Bool) (margin : Nat) :
    Nat → List Char → List Char → Bool → Cursor → Option (Plain × Cursor)
  | 0, _, _, _, _ => none
  | fuel + 1, acc, gap, broken, c =>
    let done : Option (Plain × Cursor) := some (⟨acc.reverse, broken⟩, c)
    match c.rest with
    | [] => done
    | x :: _ =>
      if isGap x then
        let (gap, d) := c.takeWhile isGap
        let broken := gap.any isBreak
        if tabInMargin margin none gap then none
        else if !inFlow && d.column < margin then some (⟨acc.reverse, broken⟩, d)
        else plain inFlow margin fuel acc (folded gap) broken d
      else if c.atMarker || (x == '#' && !gap.isEmpty) then done
      else if unclearColon inFlow c.rest then none
      else if endsPlain inFlow c.rest then done
      else plain inFlow margin fuel (x :: (gap.reverse ++ acc)) [] false c.next

/-- What happens to the breaks at the end of a block of lines. -/
inductive Chomping where
  /-- All are left out. -/
  | strip
  /-- The first is kept. -/
  | clip
  /-- All are kept. -/
  | keep
deriving DecidableEq

/-- The sign for a chomping. -/
def chomping? : List Char → Option Chomping
  | '+' :: _ => some .keep
  | '-' :: _ => some .strip
  | _ => none

/-- The digit for the indentation of a block of lines, which is not zero. -/
def indentation? : List Char → Option Nat
  | c :: _ => Decimal.digit? 10 c
  | [] => none

/-- Takes the first line of a block of lines off, of which the indicator is passed: the chomping and
the further indentation, if it is given. They come in either order. -/
def blockHeader (c : Cursor) : Option (Chomping × Option Nat × Cursor) :=
  let (signed, c) := match chomping? c.rest with
    | some k => (some k, c.next)
    | none => (none, c)
  let (digit, c) := match indentation? c.rest with
    | some n => (some n, c.next)
    | none => (none, c)
  let (signed, c) := match signed, digit, chomping? c.rest with
    | none, some _, some k => (some k, c.next)
    | _, _, _ => (signed, c)
  let c := (c.skip isSpace).skipComment
  let atEnd := match c.rest with
    | [] => true
    | x :: _ => isBreak x
  if digit == some 0 || !atEnd then none
  else some (signed.getD .clip, digit, c.takeBreak.2)

/-- Takes empty lines off, and the spaces in front of the next line up to column `indent`, or all of
them if that is not known yet. The answer is the breaks and the greatest number of spaces. A tab
must not stand in the indentation. -/
def emptyLines (indent : Option Nat) :
    Nat → List Char → Nat → Cursor → Option (List Char × Nat × Cursor)
  | 0, _, _, _ => none
  | fuel + 1, acc, widest, c =>
    let spaces := (c.rest.takeWhile (· == ' ')).length
    let c := c.drop (match indent with
      | none => spaces
      | some n => min spaces (n - c.column))
    let widest := max widest c.column
    let before := match indent with
      | none => true
      | some n => c.column < n
    match c.rest with
    | [] => some (acc.reverse, widest, c)
    | x :: _ =>
      if before && x == '\t' then none
      else if isBreak x then
        let (b, c) := c.takeBreak
        emptyLines indent fuel (b ++ acc) widest c
      else some (acc.reverse, widest, c)

/-- A block of lines while it is read: the text so far, reversed, the break behind its last line and
those of the empty lines that follow. -/
structure Block where
  text : List Char
  last : List Char
  empty : List Char

/-- Takes the lines of a block off. In a folded block a line feed between two lines that start with
no white space is left out if empty lines follow, and becomes a space otherwise. -/
def blockLines (folds : Bool) (indent : Nat) :
    Nat → Block → Bool → Cursor → Option (Block × Cursor)
  | 0, _, _, _ => none
  | fuel + 1, b, afterBlank, c =>
    match c.rest with
    | [] => some (b, c)
    | x :: _ =>
      if c.column != indent then some (b, c)
      else
        let blank := isSpace x
        let text :=
          if folds && b.last == ['\n'] && !afterBlank && !blank then
            if b.empty.isEmpty then ' ' :: b.text else b.text
          else b.last.reverse ++ b.text
        let (line, c) := c.takeWhile (!isBreak ·)
        let text := line.reverse ++ (b.empty.reverse ++ text)
        let (last, c) := c.takeBreak
        match emptyLines (some indent) fuel [] 0 c with
        | none => none
        | some (empty, _, c) => blockLines folds indent fuel ⟨text, last, empty⟩ blank c

/-- Takes the text of a block of lines off, of which the indicator is passed. `margin` is the least
column of what belongs to the block around it. -/
def blockText (folds : Bool) (margin fuel : Nat) (c : Cursor) :
    Option (List Char × Cursor) := do
  let (chomping, further, c) ← blockHeader c
  let known := further.map (margin - 1 + ·)
  let (empty, widest, c) ← emptyLines known fuel [] 0 c
  let indent := known.getD (max widest (max margin 1))
  let (b, c) ← blockLines folds indent fuel ⟨[], [], empty⟩ false c
  let text := match chomping with
    | .strip => b.text.reverse
    | .clip => b.text.reverse ++ b.last
    | .keep => b.text.reverse ++ b.last ++ b.empty
  return (text, c)

end CodeTidy.Yaml
