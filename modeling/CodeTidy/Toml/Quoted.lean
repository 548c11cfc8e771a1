import CodeTidy.Toml.Cursor
import CodeTidy.Toml.Scalar

/-!
# Quoted texts of TOML

A basic text stands in double quotes and knows escapes, a literal text stands in single quotes and
is taken as it is. Tripled quotes hold texts of several lines. A reader of such a text starts
behind the opening quotes and gives back the text, reversed, and what is left.
-/

namespace CodeTidy.Toml

/-- Reads `n` hexadecimal digits. -/
def hexDigits? : Nat → Nat → Cursor → Option (Nat × Cursor)
  | 0, acc, c => some (acc, c)
  | n + 1, acc, c => do
    let (x, c) ← c.next?
    let d ← Decimal.digit? 16 x
    hexDigits? n (16 * acc + d) c

/-- The character of a code that is no surrogate. -/
def charOf? (n : Nat) : Option Char := if n.isValidChar then some (Char.ofNat n) else none

/-- The characters that short escapes stand for. -/
def shortEscapes : List (Char × Char) :=
  [('b', '\x08'), ('t', '\t'), ('n', '\n'), ('f', '\x0c'), ('r', '\r'), ('e', '\x1b'), ('"', '"'),
    ('\\', '\\')]

/-- The number of hexadecimal digits of the other escapes. -/
def longEscapes : List (Char × Nat) := [('x', 2), ('u', 4), ('U', 8)]

/-- Reads an escape behind its backslash. -/
def escape? (c : Cursor) : Option (Char × Cursor) := do
  let (x, c) ← c.next?
  match shortEscapes.lookup x, longEscapes.lookup x with
  | some y, _ => return (y, c)
  | none, some n =>
    let (code, c) ← hexDigits? n 0 c
    return (← charOf? code, c)
  | none, none => none

/-- Reads a basic text of one line. Each step takes a character, so the length of the text is
enough fuel; so it is for the readers below. -/
def basic? : Nat → List Char → Cursor → Option (List Char × Cursor)
  | 0, _, _ => none
  | fuel + 1, acc, c =>
    match c.next? with
    | none => none
    | some (x, c) =>
      if x == '"' then some (acc, c)
      else if x == '\\' then
        match escape? c with
        | some (x, c) => basic? fuel (x :: acc) c
        | none => none
      else if isControl x then none
      else basic? fuel (x :: acc) c

/-- Reads a literal text of one line. -/
def literal? (c : Cursor) : Option (List Char × Cursor) :=
  let (text, c) := c.takeWhile fun x => x != '\'' && !isControl x
  (c.expect '\'').map (text.reverse, ·)

/-- Reads the closing quotes of a text of several lines, which up to two quotes of the text may
stand in front of. -/
def closing? (q : Char) (acc : List Char) (c : Cursor) : Option (List Char × Cursor) :=
  let (quotes, c) := c.takeWhile (· == q)
  if 3 ≤ quotes.length && quotes.length ≤ 5 then
    some (List.replicate (quotes.length - 3) q ++ acc, c)
  else none

/-- What is left behind the white space and the line feeds that follow a backslash at the end of a
line. -/
def skipContinuation? (c : Cursor) : Option Cursor :=
  c.skipSpace.newline?.map (·.skip fun x => isSpace x || x == '\n' || x == '\r')

/-- Do three quotes come next? -/
def closesLong (q : Char) (c : Cursor) : Bool := [q, q, q].isPrefixOf c.rest

/-- Reads a basic text of several lines. -/
def longBasic? : Nat → List Char → Cursor → Option (List Char × Cursor)
  | 0, _, _ => none
  | fuel + 1, acc, c =>
    if closesLong '"' c then closing? '"' acc c
    else
      match c.newline?, c.next? with
      | some c, _ => longBasic? fuel ('\n' :: acc) c
      | none, none => none
      | none, some (x, c) =>
        if x == '\\' then
          match skipContinuation? c, escape? c with
          | some c, _ => longBasic? fuel acc c
          | none, some (x, c) => longBasic? fuel (x :: acc) c
          | none, none => none
        else if isControl x then none
        else longBasic? fuel (x :: acc) c

/-- Reads a literal text of several lines. -/
def longLiteral? : Nat → List Char → Cursor → Option (List Char × Cursor)
  | 0, _, _ => none
  | fuel + 1, acc, c =>
    if closesLong '\'' c then closing? '\'' acc c
    else
      match c.newline?, c.next? with
      | some c, _ => longLiteral? fuel ('\n' :: acc) c
      | none, none => none
      | none, some (x, c) => if isControl x then none else longLiteral? fuel (x :: acc) c

/-- The place behind opening tripled quotes and a line feed that directly follows them. -/
def openLong (c : Cursor) : Cursor :=
  let c : Cursor := ⟨c.offset + 3, c.rest.drop 3⟩
  c.newline?.getD c

/-- Reads a text with its quotes. `long` tells whether it may have several lines. -/
def quoted? (long : Bool) (c : Cursor) : Option (String × Cursor) :=
  let fuel := c.rest.length
  let inner : Cursor := ⟨c.offset + 1, c.rest.tail⟩
  let found :=
    if closesLong '"' c then if long then longBasic? fuel [] (openLong c) else none
    else if closesLong '\'' c then if long then longLiteral? fuel [] (openLong c) else none
    else match c.rest with
      | '"' :: _ => basic? fuel [] inner
      | '\'' :: _ => literal? inner
      | _ => none
  found.map fun (text, c) => (String.ofList text.reverse, c)

end CodeTidy.Toml
