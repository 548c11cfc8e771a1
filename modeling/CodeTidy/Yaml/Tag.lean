import CodeTidy.Decimal.Nearest
import CodeTidy.Text.Blank
import CodeTidy.Text.Utf8
import CodeTidy.Yaml.Cursor

/-!
# Tags, anchors and directives of YAML

An anchor names a node, and an alias stands for the node of that name. A tag gives the type of a
node: a handle, which stands for the first part of the tag, and a suffix. Directives in front of a
document give the version of YAML and say what handles stand for. Each function here takes one of
these off and fails if there is none.
-/

namespace CodeTidy.Yaml

/-- A character of the name of an anchor, a handle or a directive. -/
def isWord (c : Char) : Bool := Text.isAsciiAlphanumeric c || c == '_' || c == '-'

/-- A tag as it is written. An empty handle stands for nothing. -/
structure Tag where
  handle : List Char
  suffix : List Char
deriving DecidableEq

/-- What stands in front of a document. -/
inductive Directive where
  | version (major minor : Nat)
  | handle (name stem : List Char)
deriving DecidableEq

/-- Takes the name of an anchor or an alias off, of which the indicator is passed. -/
def anchorName (c : Cursor) : Option (List Char × Cursor) :=
  let (name, c) := c.takeWhile isWord
  let ends := match c.rest with
    | [] => true
    | x :: _ => isGap x || ['?', ':', ',', ']', '}', '%', '@', '\x60'].contains x
  if name.isEmpty || !ends then none else some (name, c)

/-- A character that may stand in a tag. Commas and brackets may only where the tag is enclosed. -/
def isTagChar (enclosed : Bool) (c : Char) : Bool :=
  isWord c || ";/?:@&=+$.!~*'()".toList.contains c || (enclosed && [',', '[', ']'].contains c)

/-- Takes `n` escaped bytes off: a percent sign and two hexadecimal digits each. -/
def escapedBytes : Nat → List UInt8 → List Char → Option (List UInt8)
  | 0, acc, _ => some acc.reverse
  | n + 1, acc, '%' :: a :: b :: rest => do
    let byte := 16 * (← Decimal.digit? 16 a) + (← Decimal.digit? 16 b)
    escapedBytes n (byte.toUInt8 :: acc) rest
  | _ + 1, _, _ => none

/-- The character whose bytes are escaped at the start of the text, and their number. -/
def escapedChar (s : List Char) : Option (Char × Nat) := do
  let size := match ← escapedBytes 1 [] s with
    | [b] => if b < 0x80 then 1 else if b < 0xe0 then 2 else if b < 0xf0 then 3 else 4
    | _ => 1
  match Text.readUtf8 size 0 [] (← escapedBytes size [] s) with
  | .ok [x] => some (x, size)
  | _ => none

/-- Takes the characters of a tag off. -/
def tagText (enclosed : Bool) : Nat → List Char → Cursor → Option (List Char × Cursor)
  | 0, _, _ => none
  | fuel + 1, acc, c =>
    match c.rest with
    | [] => some (acc.reverse, c)
    | x :: _ =>
      if x == '%' then
        match escapedChar c.rest with
        | some (y, size) => tagText enclosed fuel (y :: acc) (c.drop (3 * size))
        | none => none
      else if isTagChar enclosed x then tagText enclosed fuel (x :: acc) c.next
      else some (acc.reverse, c)

/-- Takes a handle off: an exclamation mark, and a word and a second one if the handle has them. -/
def tagHandle (c : Cursor) : Option (List Char × Cursor) :=
  match c.rest with
  | '!' :: _ =>
    let (word, c) := c.next.takeWhile isWord
    match c.rest with
    | '!' :: _ => some ('!' :: word ++ ['!'], c.next)
    | _ => some ('!' :: word, c)
  | _ => none

/-- Takes a tag off. An enclosed tag has no handle. A single exclamation mark is a tag too. -/
def tag (fuel : Nat) (c : Cursor) : Option (Tag × Cursor) :=
  match c.rest with
  | '!' :: '<' :: _ => do
    let (text, c) ← tagText true fuel [] (c.drop 2)
    match c.rest with
    | '>' :: _ => if text.isEmpty then none else return (⟨[], text⟩, c.next)
    | _ => none
  | _ => do
    let (handle, c) ← tagHandle c
    if handle.length > 1 && handle.getLast? == some '!' then
      let (text, c) ← tagText false fuel [] c
      if text.isEmpty then none else return (⟨handle, text⟩, c)
    else
      let (text, c) ← tagText false fuel handle.tail.reverse c
      if text.isEmpty then return (⟨[], ['!']⟩, c) else return (⟨['!'], text⟩, c)

/-- Takes a number of at most nine digits off. -/
def versionNumber (c : Cursor) : Option (Nat × Cursor) := do
  let (digits, c) := c.takeWhile Text.isAsciiDigit
  if digits.isEmpty || digits.length > 9 then none
  else return (Decimal.ofDigits 10 (← digits.mapM (Decimal.digit? 10)), c)

/-- Takes the number of the version off. -/
def versionDirective (c : Cursor) : Option (Directive × Cursor) := do
  let (major, c) ← versionNumber (c.skip isSpace)
  match c.rest with
  | '.' :: _ =>
    let (minor, c) ← versionNumber c.next
    return (.version major minor, c)
  | _ => none

/-- Takes a handle and what it stands for off. -/
def handleDirective (fuel : Nat) (c : Cursor) : Option (Directive × Cursor) := do
  let (name, c) ← tagHandle (c.skip isSpace)
  let spaced := match c.rest with
    | x :: _ => isSpace x
    | [] => false
  if !spaced || (name.length > 1 && name.getLast? != some '!') then none
  else
    let (stem, c) ← tagText true fuel [] (c.skip isSpace)
    if stem.isEmpty || !atGap c.rest then none else return (.handle name stem, c)

/-- Takes a directive off, of which the percent sign is passed, and the rest of its line. -/
def directive (fuel : Nat) (c : Cursor) : Option (Directive × Cursor) := do
  let (name, c) := c.takeWhile isWord
  if !atGap c.rest then none
  else
    let (d, c) ←
      if name == "YAML".toList then versionDirective c
      else if name == "TAG".toList then handleDirective fuel c
      else none
    let c := (c.skip isSpace).skipComment
    match c.rest with
    | [] => return (d, c)
    | x :: _ => if isBreak x then return (d, c.takeBreak.2) else none

end CodeTidy.Yaml
