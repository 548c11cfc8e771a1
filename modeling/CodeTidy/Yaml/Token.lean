import CodeTidy.Yaml.Scalar
import CodeTidy.Yaml.Tag

/-!
# Tokens of YAML

The structure of a YAML text is in its indentation or in brackets. The tokens show both: where a
block of list items or of keys and values starts and ends, and where a key starts. A key need not be
marked, so it shows only at the colon behind it that something was a key; its tokens are then put in
at the place where it started. Such a key stands on one line and has at most 1024 characters.
-/

namespace CodeTidy.Yaml

/-- A token of a YAML text. -/
inductive Token where
  | directive (d : Directive)
  | documentStart
  | documentEnd
  | listStart
  | mapStart
  | blockEnd
  | item
  | key
  | value
  | openList
  | closeList
  | openMap
  | closeMap
  | comma
  | alias (name : List Char)
  | anchor (name : List Char)
  | tag (t : Tag)
  | scalar (plain : Bool) (text : List Char)
deriving DecidableEq

/-- A place where a key may have started: the number of tokens in front of it, whether only a key
can start there, and where it is in the text. -/
structure KeyStart where
  number : Nat
  required : Bool
  index : Nat
  line : Nat
  column : Nat

/-- A text of which some tokens have been read, the last one first. -/
structure Scan where
  cursor : Cursor
  tokens : List Token := []
  count : Nat := 0
  /-- The least column of what belongs to the innermost block, and zero outside of all blocks. -/
  margin : Nat := 0
  /-- The margins of the blocks around it, the innermost first. -/
  outer : List Nat := []
  /-- Where a key may have started within the innermost brackets. -/
  keyStart : Option KeyStart := none
  /-- The same for what is around those brackets, and so on. -/
  around : List (Option KeyStart) := []
  /-- May a key start here? -/
  keyAllowed : Bool := true

namespace Scan

/-- Is the place between brackets? -/
def inFlow (s : Scan) : Bool := !s.around.isEmpty

/-- The text with one more token read. -/
def push (t : Token) (s : Scan) : Scan :=
  { s with tokens := t :: s.tokens, count := s.count + 1 }

/-- The text with a token put in behind the first `number` tokens. -/
def insert (number : Nat) (t : Token) (s : Scan) : Scan :=
  let (after, before) := s.tokens.splitAt (s.count - number)
  { s with tokens := after ++ t :: before, count := s.count + 1 }

/-- Opens a block that starts in a column, unless the column lies in the margin of a block already.
The token is put in behind the first `number` tokens. -/
def openBlock (column number : Nat) (t : Token) (s : Scan) : Scan :=
  if s.inFlow || column < s.margin then s
  else { s.insert number t with margin := column + 1, outer := s.margin :: s.outer }

/-- Ends blocks until one has a margin of at most `limit`. -/
def endBlocks (limit : Nat) : List Nat → Scan → Scan
  | [], s => s
  | m :: outer, s =>
    if limit < s.margin then endBlocks limit outer { s.push .blockEnd with margin := m, outer }
    else s

/-- Ends the blocks that reach no further than the margin `limit`. Brackets keep them open. -/
def closeTo (limit : Nat) (s : Scan) : Scan := if s.inFlow then s else endBlocks limit s.outer s

/-- Gives up the place where a key may have started. Fails if a key had to. -/
def dropKey (s : Scan) : Option Scan :=
  match s.keyStart with
  | some k => if k.required then none else some { s with keyStart := none }
  | none => some s

/-- Notes that a key may start here. -/
def saveKey (s : Scan) : Option Scan :=
  if s.keyAllowed then do
    let required := !s.inFlow && s.margin == s.cursor.column + 1
    let s ← s.dropKey
    let c := s.cursor
    return { s with keyStart := some ⟨s.count, required, c.index, c.line, c.column⟩ }
  else some s

/-- Is the place on an earlier line than the cursor, or more than 1024 characters before it? -/
def isStale (c : Cursor) (k : KeyStart) : Bool := k.line < c.line || k.index + 1024 < c.index

/-- The place unless it is too far back for a key. Fails if a key had to start there. -/
def refresh (c : Cursor) (k : Option KeyStart) : Option (Option KeyStart) :=
  match k with
  | some k => if isStale c k then (if k.required then none else some none) else some (some k)
  | none => some none

/-- Gives up all places that are too far back for a key. -/
def dropStale (s : Scan) : Option Scan := do
  let keyStart ← refresh s.cursor s.keyStart
  let around ← s.around.mapM (refresh s.cursor)
  return { s with keyStart, around }

/-- Passes white space, comments and breaks. Tabs belong to it only where no key may start, and a
byte order mark only at the start of a line. -/
def skipSpace : Nat → Scan → Scan
  | 0, s => s
  | fuel + 1, s =>
    let c := s.cursor
    let c := if c.column == 0 && c.rest.head? == some '\ufeff' then c.next else c
    let tabs := s.inFlow || !s.keyAllowed
    let c := (c.skip fun x => x == ' ' || (tabs && x == '\t')).skipComment
    let ended := match c.rest with
      | x :: _ => isBreak x
      | [] => false
    if ended then
      skipSpace fuel { s with cursor := c.takeBreak.2, keyAllowed := s.keyAllowed || !s.inFlow }
    else { s with cursor := c }

/-- Reads a mark of `n` characters. -/
def mark (n : Nat) (t : Token) (s : Scan) : Scan := { s.push t with cursor := s.cursor.drop n }

/-- Reads a directive, or the mark at the start or the end of a document. -/
def documentMark (fuel : Nat) (s : Scan) : Option Scan := do
  let s ← (s.closeTo 0).dropKey
  let s := { s with keyAllowed := false }
  match s.cursor.rest with
  | '-' :: _ => return s.mark 3 .documentStart
  | '.' :: _ => return s.mark 3 .documentEnd
  | _ =>
    let (d, c) ← directive fuel s.cursor.next
    return { s.push (.directive d) with cursor := c }

/-- Reads an opening bracket. -/
def openBracket (t : Token) (s : Scan) : Option Scan := do
  let s ← s.saveKey
  return { s.mark 1 t with keyStart := none, around := s.keyStart :: s.around, keyAllowed := true }

/-- Reads a closing bracket. One that closes nothing is left to the reader of the tokens. -/
def closeBracket (t : Token) (s : Scan) : Option Scan := do
  let s ← s.dropKey
  let s := match s.around with
    | k :: around => { s with keyStart := k, around }
    | [] => s
  return { s.mark 1 t with keyAllowed := false }

/-- Reads a comma. -/
def comma (s : Scan) : Option Scan := do
  let s ← s.dropKey
  return { s.mark 1 .comma with keyAllowed := true }

/-- Opens a block at the cursor where a key may start, and fails where none may. -/
def openHere (t : Token) (s : Scan) : Option Scan :=
  if s.inFlow then some s
  else if s.keyAllowed then some (s.openBlock s.cursor.column s.count t)
  else none

/-- Reads the dash in front of an item. -/
def item (s : Scan) : Option Scan := do
  let s ← (← s.openHere .listStart).dropKey
  return { s.mark 1 .item with keyAllowed := true }

/-- Reads the question mark in front of a key. -/
def key (s : Scan) : Option Scan := do
  let s ← (← s.openHere .mapStart).dropKey
  return { s.mark 1 .key with keyAllowed := !s.inFlow }

/-- Reads the colon in front of a value. If a key may have started it is one now. -/
def value (s : Scan) : Option Scan :=
  match s.keyStart with
  | some k =>
    let s := (s.insert k.number .key).openBlock k.column k.number .mapStart
    some { s.mark 1 .value with keyStart := none, keyAllowed := false }
  | none => do
    let s ← s.openHere .mapStart
    return { s.mark 1 .value with keyAllowed := !s.inFlow }

/-- Reads an anchor or an alias. -/
def name (t : List Char → Token) (s : Scan) : Option Scan := do
  let s ← s.saveKey
  let (name, c) ← anchorName s.cursor.next
  return { s.push (t name) with cursor := c, keyAllowed := false }

/-- Reads a tag, which ends in front of white space, or of a comma between brackets. -/
def tag (fuel : Nat) (s : Scan) : Option Scan := do
  let s ← s.saveKey
  let (t, c) ← Yaml.tag fuel s.cursor
  if atGap c.rest || (s.inFlow && c.rest.head? == some ',') then
    return { s.push (.tag t) with cursor := c, keyAllowed := false }
  else none

/-- Reads a scalar that is a block of lines. -/
def blockScalar (folds : Bool) (fuel : Nat) (s : Scan) : Option Scan := do
  let s ← s.dropKey
  let (text, c) ← blockText folds s.margin fuel s.cursor.next
  return { s.push (.scalar false text) with cursor := c, keyAllowed := true }

/-- Reads a scalar between quotes with `read`. -/
def quotedScalar (read : Cursor → Option (List Char × Cursor)) (s : Scan) : Option Scan := do
  let s ← s.saveKey
  let (text, c) ← read s.cursor.next
  return { s.push (.scalar false text) with cursor := c, keyAllowed := false }

/-- Reads a plain scalar. Behind a break a key may start again. -/
def plainScalar (fuel : Nat) (s : Scan) : Option Scan := do
  let s ← s.saveKey
  let (p, c) ← plain s.inFlow s.margin fuel [] [] false s.cursor
  return { s.push (.scalar true p.text) with cursor := c, keyAllowed := p.broken }

/-- Can a plain scalar start with `x` in front of `rest`? -/
def startsPlain (inFlow : Bool) (x : Char) (rest : List Char) : Bool :=
  match x with
  | '-' => !(rest.head?.any isSpace)
  | '?' | ':' => !inFlow && !atGap rest
  | _ => !isGap x && !",[]{}#&*!|>'\"%@\x60".toList.contains x

/-- Reads the token that starts with `x` in front of `rest`. -/
def token (fuel : Nat) (x : Char) (rest : List Char) (s : Scan) : Option Scan :=
  if (s.cursor.column == 0 && x == '%') || s.cursor.atMarker then s.documentMark fuel
  else
    match x with
    | '[' => s.openBracket .openList
    | '{' => s.openBracket .openMap
    | ']' => s.closeBracket .closeList
    | '}' => s.closeBracket .closeMap
    | ',' => s.comma
    | '*' => s.name .alias
    | '&' => s.name .anchor
    | '!' => s.tag fuel
    | '\'' => s.quotedScalar (singleQuoted fuel [])
    | '"' => s.quotedScalar (doubleQuoted fuel [])
    | _ =>
      if x == '-' && atGap rest then s.item
      else if x == '?' && (s.inFlow || atGap rest) then s.key
      else if x == ':' && (s.inFlow || atGap rest) then s.value
      else if x == '|' && !s.inFlow then s.blockScalar false fuel
      else if x == '>' && !s.inFlow then s.blockScalar true fuel
      else if startsPlain s.inFlow x rest then s.plainScalar fuel
      else none

/-- Reads all tokens that are left. Each takes a character, so two more than their number is enough
fuel. -/
def run : Nat → Scan → Option (List Token)
  | 0, _ => none
  | fuel + 1, s => do
    let s ← (s.skipSpace (fuel + 1)).dropStale
    let s := s.closeTo (s.cursor.column + 1)
    match s.cursor.rest with
    | [] =>
      let s ← (s.closeTo 0).dropKey
      return s.tokens.reverse
    | x :: rest =>
      let s ← s.token (fuel + 1) x rest
      run fuel s

end Scan

/-- The tokens of a text. -/
def tokens? (s : List Char) : Option (List Token) :=
  if s.all isAllowed then Scan.run (s.length + 2) { cursor := .start s } else none

end CodeTidy.Yaml
