import CodeTidy.Toml.Quoted
import CodeTidy.Toml.Tree

/-!
# Reading TOML

A document is a sequence of lines: headers, keys with values, and blanks, each possibly with a
comment. The reader builds the tree of the document, or answers that there is none. Arrays and
inline tables may nest eighty deep.
-/

namespace CodeTidy.Toml

/-- A character of a bare key. -/
def isBare (c : Char) : Bool := Text.isAsciiAlphanumeric c || c == '_' || c == '-'

/-- Reads a key without dots. -/
def simpleKey? (c : Cursor) : Option (Key × Cursor) :=
  let (bare, d) := c.takeWhile isBare
  if bare.isEmpty then
    (quoted? false c).map fun (name, d) => (⟨name, ⟨c.offset, d.offset⟩⟩, d)
  else some (⟨String.ofList bare, ⟨c.offset, d.offset⟩⟩, d)

/-- Reads the keys of a dotted key behind its first one. Each takes a dot, so the length of what is
left is enough fuel. -/
def moreKeys? : Nat → List Key → Cursor → Option (List Key × Cursor)
  | 0, acc, c => some (acc, c)
  | fuel + 1, acc, c =>
    match c.skipSpace.expect '.' with
    | none => some (acc, c)
    | some c =>
      match simpleKey? c.skipSpace with
      | some (key, c) => moreKeys? fuel (key :: acc) c
      | none => none

/-- Reads a key: the path in front of its last part, and that part. -/
def key? (c : Cursor) : Option (List Key × Key × Cursor) := do
  let (first, c) ← simpleKey? c
  let (keys, c) ← moreKeys? c.rest.length [first] c
  match keys with
  | last :: path => some (path.reverse, last, c)
  | [] => none

/-- Characters that end a value without quotes and brackets. -/
def endsScalar (c : Char) : Bool :=
  [' ', '\t', '\n', '\r', '#', ',', '[', ']', '\x7b', '\x7d', '=', '"', '\''].contains c

/-- Reads a value without quotes and brackets. A blank may divide a date from a time. -/
def bareValue? (c : Cursor) : Option (Value × Cursor) :=
  let (first, d) := c.takeWhile (!endsScalar ·)
  let (second, e) := ((d.expect ' ').getD d).takeWhile (!endsScalar ·)
  if date? first == some [] && second.head?.any Text.isAsciiDigit then
    (scalar? (first ++ ' ' :: second)).map fun v => (.scalar v, e)
  else (scalar? first).map fun v => (.scalar v, d)

/-- A reader of values. -/
abbrev ValueReader := Cursor → Option (Value × Cursor)

/-- Reads the items of an array and its closing bracket. -/
def items? (read : ValueReader) : Nat → List (Span × Value) → ValueReader
  | 0, _, _ => none
  | fuel + 1, acc, c => do
    let c := c.skipBlankLines
    match c.expect ']' with
    | some c => some (.list false acc.reverse, c)
    | none =>
      let (v, d) ← read c
      let acc := (⟨c.offset, d.offset⟩, v) :: acc
      let d := d.skipBlankLines
      match d.expect ',' with
      | some d => items? read fuel acc d
      | none => (d.expect ']').map (.list false acc.reverse, ·)

/-- The table as one that is finished where it is written. -/
def Value.inlined : Value → Value
  | .table _ members => .table .inlined members
  | v => v

/-- Reads the members of an inline table, of which there is one at least, and its closing brace. -/
def members? (read : ValueReader) : Nat → Value → ValueReader
  | 0, _, _ => none
  | fuel + 1, acc, c => do
    let (path, key, c) ← key? c
    let c ← (c.skipSpace.expect '=').map Cursor.skipSpace
    let (v, d) ← read c
    let acc ← acc.atTop (Value.addDotted path key ⟨c.offset, d.offset⟩ v)
    let d := d.skipBlankLines
    match d.expect ',' with
    | none => (d.expect '\x7d').map (acc.inlined, ·)
    | some d =>
      let d := d.skipBlankLines
      match d.expect '\x7d' with
      | some d => some (acc.inlined, d)
      | none => members? read fuel acc d

/-- Reads a value without parts. -/
def plainValue? (c : Cursor) : Option (Value × Cursor) :=
  match c.rest with
  | '"' :: _ | '\'' :: _ => (quoted? true c).map fun (s, c) => (.scalar (.str s), c)
  | _ => bareValue? c

/-- Reads a value. Arrays and tables inside may nest `depth` deep, and `fuel` bounds the number of
parts of each. -/
def value? (fuel : Nat) : Nat → ValueReader
  | 0, c =>
    match c.rest with
    | '[' :: _ | '\x7b' :: _ => none
    | _ => plainValue? c
  | depth + 1, c =>
    match c.next? with
    | some ('[', c) => items? (value? fuel depth) fuel [] c
    | some ('\x7b', c) =>
      let c := c.skipBlankLines
      match c.expect '\x7d' with
      | some c => some (.table .inlined [], c)
      | none => members? (value? fuel depth) fuel (.table .header []) c
    | _ => plainValue? c

/-- How deep arrays and inline tables may nest. -/
def nestingLimit : Nat := 80

/-- Reads the keys of a header between its brackets. -/
def headerKeys? (c : Cursor) : Option (List Key × Key × Cursor) := do
  let (path, key, c) ← key? c.skipSpace
  return (path, key, c.skipSpace)

/-- Reads the lines of a document into its tree. `header` is the path of the table that the last
header has opened. Each step takes a line, so the length of the document is enough fuel. -/
def lines? : Nat → List Key → Value → Cursor → Option Value
  | 0, _, v, _ => some v
  | fuel + 1, header, v, c => do
    let c := c.skipBlankLines
    match c.rest with
    | [] => some v
    | '[' :: '[' :: rest =>
      let (path, key, d) ← headerKeys? ⟨c.offset + 2, rest⟩
      let d ← (d.expect ']').bind (Cursor.expect ']')
      let v ← v.inHeader path (Value.openItem key ⟨c.offset, d.offset⟩)
      lines? fuel (path ++ [key]) v (← d.endLine?)
    | '[' :: rest =>
      let (path, key, d) ← headerKeys? ⟨c.offset + 1, rest⟩
      let d ← d.expect ']'
      let v ← v.inHeader path (Value.openTable key ⟨c.offset, d.offset⟩)
      lines? fuel (path ++ [key]) v (← d.endLine?)
    | _ =>
      let (path, key, c) ← key? c
      let c ← (c.skipSpace.expect '=').map Cursor.skipSpace
      let (item, d) ← value? c.rest.length nestingLimit c
      let v ← v.inHeader header (Value.addDotted path key ⟨c.offset, d.offset⟩ item)
      lines? fuel header v (← d.endLine?)

/-- The tree of a document, if it is one. A byte order mark in front of it is skipped. -/
def parse? (s : List Char) : Option Value :=
  let start : Cursor := match s with
    | c :: rest => if c.toNat == 0xfeff then ⟨3, rest⟩ else ⟨0, s⟩
    | [] => ⟨0, s⟩
  lines? (s.length + 1) [] (.table .header []) start

end CodeTidy.Toml
