import CodeTidy.Json.Basic
import CodeTidy.Json.Error

/-!
# Reading JSON

A reader takes the part of the text that is still to be read, together with its place, and gives
back a value and what is left. A text may nest 127 arrays and objects; `value` recurses on the
nesting that is still allowed, and the items of one container are read by recursion on a bound
for their number.

Numbers without fraction and exponent stay integers as long as 64 bits hold them. All others
become floating-point numbers, computed from the first nineteen or twenty digits and one power of
ten, so that the last bit need not be the nearest.
-/

namespace CodeTidy.Json

/-- What is left of a text, and where it starts. -/
structure Cursor where
  rest : List Char
  place : Position

namespace Position

/-- The place behind `bytes` bytes of a character that is not a line feed. -/
def right (p : Position) (bytes : Nat) : Position := ⟨p.line, p.column + bytes⟩

/-- The place behind a character. -/
def after (p : Position) (c : Char) : Position :=
  if c == '\n' then ⟨p.line + 1, 0⟩ else p.right c.utf8Size

end Position

namespace Cursor

/-- The start of a text. -/
def start (s : List Char) : Cursor := ⟨s, ⟨1, 0⟩⟩

/-- The place behind the first byte of what is left. -/
def peekPlace (c : Cursor) : Position :=
  match c.rest with
  | [] => c.place
  | x :: _ => if x == '\n' then c.place.after x else c.place.right 1

/-- What is left behind the next character. -/
def next (c : Cursor) : Cursor :=
  match c.rest with
  | [] => c
  | x :: r => ⟨r, c.place.after x⟩

/-- A fault at the place reached. -/
def fault {α : Type} (c : Cursor) (cause : Cause) : Except Fault α := .error ⟨cause, c.place⟩

/-- A fault of the next character. -/
def peekFault {α : Type} (c : Cursor) (cause : Cause) : Except Fault α :=
  .error ⟨cause, c.peekPlace⟩

/-- Skips the blanks of JSON. -/
def skipBlanks (c : Cursor) : Cursor := go c.place c.rest
where
  /-- Skips blanks of `s`, which starts at `p`. -/
  go (p : Position) : List Char → Cursor
    | [] => ⟨[], p⟩
    | x :: r =>
      if x == ' ' || x == '\n' || x == '\t' || x == '\r' then go (p.after x) r else ⟨x :: r, p⟩

end Cursor

/-- The value of a hexadecimal digit. -/
def hexValue? (c : Char) : Option Nat :=
  if '0' ≤ c && c ≤ '9' then some (c.toNat - '0'.toNat)
  else if 'a' ≤ c && c ≤ 'f' then some (c.toNat - 'a'.toNat + 10)
  else if 'A' ≤ c && c ≤ 'F' then some (c.toNat - 'A'.toNat + 10)
  else none

/-- Passes over `n` bytes, which may end inside a character. The flag says whether so many
bytes were left. -/
def skipBytes : Nat → Cursor → Cursor × Bool
  | 0, c => (c, true)
  | _ + 1, ⟨[], p⟩ => (⟨[], p⟩, false)
  | n + 1, ⟨x :: r, p⟩ =>
    if x.utf8Size ≤ n + 1 then skipBytes (n + 1 - x.utf8Size) ⟨r, p.after x⟩
    else (⟨r, p.right (n + 1)⟩, true)
termination_by _ c => c.rest.length

/-- Four hexadecimal digits. -/
def hexFour (c : Cursor) : Except Fault (Nat × Cursor) :=
  match c.rest with
  | a :: b :: d :: e :: r =>
    match hexValue? a, hexValue? b, hexValue? d, hexValue? e with
    | some a, some b, some d, some e =>
      .ok (((a * 16 + b) * 16 + d) * 16 + e, ⟨r, c.place.right 4⟩)
    | _, _, _, _ => (skipBytes 4 c).1.fault .invalidEscape
  | _ =>
    match skipBytes 4 c with
    | (c, true) => c.fault .invalidEscape
    | (c, false) => c.fault .eofInString

/-- Reads `want` as the next character of a surrogate pair. -/
def expectInPair (want : Char) (c : Cursor) : Except Fault Cursor :=
  match c.rest with
  | [] => c.fault .eofInString
  | x :: r =>
    if x == want then .ok ⟨r, c.place.after x⟩
    else .error ⟨.unexpectedEndOfHexEscape, c.peekPlace⟩

/-- The character that a `\u` escape stands for. Characters beyond 16 bits are written as two
escapes, a leading and a trailing surrogate. -/
def unicodeEscape (c : Cursor) : Except Fault (Char × Cursor) := do
  let (n, c) ← hexFour c
  if 0xdc00 ≤ n && n ≤ 0xdfff then c.fault .loneSurrogate
  else if n < 0xd800 || 0xdbff < n then return (Char.ofNat n, c)
  else
    let c ← expectInPair '\\' c
    let c ← expectInPair 'u' c
    let (m, c) ← hexFour c
    if m < 0xdc00 || 0xdfff < m then c.fault .loneSurrogate
    else return (Char.ofNat ((n - 0xd800) * 1024 + (m - 0xdc00) + 0x10000), c)

/-- The character that one letter behind a backslash stands for. -/
def escapeChar? : Char → Option Char
  | '"' => some '"'
  | '\\' => some '\\'
  | '/' => some '/'
  | 'b' => some '\x08'
  | 'f' => some '\x0c'
  | 'n' => some '\n'
  | 'r' => some '\r'
  | 't' => some '\t'
  | _ => none

/-- The rest of a string behind its opening quote. `done` holds the characters read, reversed. At
most `fuel` characters and escapes are read, so the length of the rest is enough. -/
def stringBody : Nat → List Char → Cursor → Except Fault (String × Cursor)
  | 0, _, c => c.fault .eofInString
  | fuel + 1, done, c =>
    match c.rest with
    | [] => c.fault .eofInString
    | '"' :: r => .ok (String.ofList done.reverse, ⟨r, c.place.right 1⟩)
    | '\\' :: r =>
      let c : Cursor := ⟨r, c.place.right 1⟩
      match r with
      | [] => c.fault .eofInString
      | 'u' :: r =>
        match unicodeEscape ⟨r, c.place.right 1⟩ with
        | .error e => .error e
        | .ok (x, c) => stringBody fuel (x :: done) c
      | e :: r =>
        match escapeChar? e with
        | some x => stringBody fuel (x :: done) ⟨r, c.place.right 1⟩
        | none => .error ⟨.invalidEscape, c.peekPlace⟩
    | x :: r =>
      if x.toNat < 0x20 then c.peekFault .controlCharacter
      else stringBody fuel (x :: done) ⟨r, c.place.after x⟩

/-- A string whose opening quote comes next. -/
def string (c : Cursor) : Except Fault (String × Cursor) :=
  stringBody (c.rest.length + 1) [] c.next

/-- The digits at the start of the text. -/
def digits (c : Cursor) : List Char × Cursor :=
  let ds := c.rest.takeWhile Char.isDigit
  (ds, ⟨c.rest.dropWhile Char.isDigit, c.place.right ds.length⟩)

/-- The greatest natural number of 64 bits. -/
def maxNatural : Nat := 0xffffffffffffffff

/-- Adds digits to a number while it stays within 64 bits, and counts the digits added and the
digits left over. -/
def addDigits (n : Nat) : List Char → Nat × Nat × Nat
  | [] => (n, 0, 0)
  | d :: ds =>
    let m := n * 10 + (d.toNat - '0'.toNat)
    if m ≤ maxNatural then
      let (r, used, left) := addDigits m ds
      (r, used + 1, left)
    else (n, 0, ds.length + 1)

/-- A power of ten as a floating-point number. -/
def powerOfTen (n : Nat) : Float := Float.ofScientific 1 false n

/-- Divides by ten to the `n`, in steps of at most 308. -/
def divideByPower (f : Float) (n : Nat) : Float :=
  if n ≤ 308 then f / powerOfTen n
  else if f == 0 then f
  else divideByPower (f / powerOfTen 308) (n - 308)
termination_by n

/-- The number `significand * 10 ^ exponent`, by one multiplication or by divisions. -/
def scaledNumber (c : Cursor) (significand : Nat) (exponent : Int) : Except Fault Float :=
  let f := significand.toUInt64.toFloat
  if 0 ≤ exponent then
    if exponent ≤ 308 then
      let g := f * powerOfTen exponent.toNat
      if g.isInf then c.fault .numberOutOfRange else .ok g
    else if significand == 0 then .ok f
    else c.fault .numberOutOfRange
  else .ok (divideByPower f (-exponent).toNat)

/-- The greatest exponent that is computed with. -/
def maxExponent : Nat := 0x7fffffff

/-- Reads a number from its exponent on. -/
def exponentPart (c : Cursor) (significand : Nat) (start : Int) : Except Fault (Float × Cursor) :=
  let c := c.next
  let (negative, c) := match c.rest with
    | '+' :: _ => (false, c.next)
    | '-' :: _ => (true, c.next)
    | _ => (false, c)
  match c.rest with
  | [] => c.fault .eofInValue
  | d :: _ =>
    if !d.isDigit then c.peekFault .invalidNumber
    else
      let (ds, after) := digits c
      let (e, fits) := exponentOf 0 ds
      match fits with
      | some unread =>
        if significand != 0 && !negative then
          (⟨[], c.place.right (ds.length - unread)⟩ : Cursor).fault .numberOutOfRange
        else .ok (0.0, after)
      | none => do
        let shifted : Int := if negative then start - e else start + e
        let bound : Int := maxExponent
        let shifted := max (-bound - 1) (min bound shifted)
        return (← scaledNumber after significand shifted, after)
where
  /-- The exponent, and if it grows too large, the number of digits not yet read. -/
  exponentOf (e : Nat) : List Char → Nat × Option Nat
    | [] => (e, none)
    | d :: ds =>
      let e' := e * 10 + (d.toNat - '0'.toNat)
      if maxExponent < e' then (e, some ds.length) else exponentOf e' ds

/-- Reads a number behind its significant digits: an exponent, or nothing more. -/
def afterFraction (c : Cursor) (significand : Nat) (start : Int) : Except Fault (Float × Cursor) :=
  match c.rest with
  | 'e' :: _ => exponentPart c significand start
  | 'E' :: _ => exponentPart c significand start
  | _ => do return (← scaledNumber c significand start, c)

/-- Reads a number from its decimal point on. -/
def fractionPart (c : Cursor) (significand : Nat) (start : Int) : Except Fault (Float × Cursor) :=
  let c := c.next
  let (ds, after) := digits c
  if ds.isEmpty then
    match c.rest with
    | [] => c.peekFault .eofInValue
    | _ => c.peekFault .invalidNumber
  else
    let (n, used, _) := addDigits significand ds
    afterFraction after n (start - used)

/-- A number whose first digit comes next. -/
def number (negative : Bool) (c : Cursor) : Except Fault (Number × Cursor) :=
  match c.rest with
  | [] => c.fault .eofInValue
  | d :: _ =>
    if !d.isDigit then c.peekFault .invalidNumber
    else
      let (ds, after) :=
        if d == '0' then (['0'], c.next) else digits c
      let leadingZero := d == '0' && (match after.rest with
        | e :: _ => e.isDigit
        | [] => false)
      if leadingZero then after.peekFault .invalidNumber
      else
        let (n, _, left) := addDigits 0 ds
        let signed (r : Except Fault (Float × Cursor)) : Except Fault (Number × Cursor) := do
          let (x, c) ← r
          return (.real (if negative then -x else x), c)
        match after.rest with
        | '.' :: _ => signed (fractionPart after n left)
        | 'e' :: _ => signed (exponentPart after n left)
        | 'E' :: _ => signed (exponentPart after n left)
        | _ =>
          if left != 0 then signed (do return (← scaledNumber after n left, after))
          else if !negative then .ok (.int n, after)
          else if n == 0 || 0x8000000000000000 < n then .ok (.real (-n.toUInt64.toFloat), after)
          else .ok (.int (-n), after)

/-- Reads the letters of a word. -/
def ident : List Char → Cursor → Except Fault Cursor
  | [], c => .ok c
  | w :: ws, c =>
    match c.rest with
    | [] => c.fault .eofInValue
    | x :: _ => if x == w then ident ws c.next else c.peekFault .expectedIdent

/-- The items of an array behind the first one, reversed behind `done`. At most `fuel` items are
read. -/
def itemsFrom (item : Cursor → Except Fault (Json × Cursor)) :
    Nat → List Json → Cursor → Except Fault (List Json × Cursor)
  | 0, _, c => c.fault .eofInList
  | fuel + 1, done, c =>
    let c := c.skipBlanks
    match c.rest with
    | [] => c.peekFault .eofInList
    | ']' :: _ => .ok (done.reverse, c.next)
    | ',' :: _ =>
      let c := c.next.skipBlanks
      match c.rest with
      | [] => c.peekFault .eofInValue
      | ']' :: _ => c.peekFault .trailingComma
      | _ =>
        match item c with
        | .error e => .error e
        | .ok (v, c) => itemsFrom item fuel (v :: done) c
    | _ => c.peekFault .expectedListCommaOrEnd

/-- The items of an array whose opening bracket has been read. -/
def items (item : Cursor → Except Fault (Json × Cursor)) (c : Cursor) :
    Except Fault (List Json × Cursor) :=
  let c := c.skipBlanks
  match c.rest with
  | [] => c.peekFault .eofInList
  | ']' :: _ => .ok ([], c.next)
  | _ =>
    match item c with
    | .error e => .error e
    | .ok (v, c) => itemsFrom item (c.rest.length + 1) [v] c

/-- A key, its colon and its value. -/
def member (item : Cursor → Except Fault (Json × Cursor)) (c : Cursor) :
    Except Fault ((String × Json) × Cursor) := do
  let (key, c) ← string c
  let c := c.skipBlanks
  match c.rest with
  | [] => c.peekFault .eofInObject
  | ':' :: _ =>
    let (v, c) ← item c.next
    return ((key, v), c)
  | _ => c.peekFault .expectedColon

/-- The members of an object behind the first one, added to those in `done`. At most `fuel`
members are read. -/
def membersFrom (item : Cursor → Except Fault (Json × Cursor)) :
    Nat → List (String × Json) → Cursor → Except Fault (List (String × Json) × Cursor)
  | 0, _, c => c.fault .eofInObject
  | fuel + 1, done, c =>
    let c := c.skipBlanks
    match c.rest with
    | [] => c.peekFault .eofInObject
    | '\x7d' :: _ => .ok (done, c.next)
    | ',' :: _ =>
      let c := c.next.skipBlanks
      match c.rest with
      | [] => c.peekFault .eofInValue
      | '\x7d' :: _ => c.peekFault .trailingComma
      | '"' :: _ =>
        match member item c with
        | .error e => .error e
        | .ok ((k, v), c) => membersFrom item fuel (setMember k v done) c
      | _ => c.peekFault .keyMustBeString
    | _ => c.peekFault .expectedObjectCommaOrEnd

/-- The members of an object whose opening brace has been read. -/
def members (item : Cursor → Except Fault (Json × Cursor)) (c : Cursor) :
    Except Fault (List (String × Json) × Cursor) :=
  let c := c.skipBlanks
  match c.rest with
  | [] => c.peekFault .eofInObject
  | '\x7d' :: _ => .ok ([], c.next)
  | '"' :: _ =>
    match member item c with
    | .error e => .error e
    | .ok ((k, v), c) => membersFrom item (c.rest.length + 1) [(k, v)] c
  | _ => c.peekFault .keyMustBeString

/-- A value without nested values, or the fault of what stands in its place. -/
def scalar (c : Cursor) : Except Fault (Json × Cursor) :=
  match c.rest with
  | [] => c.peekFault .eofInValue
  | 'n' :: _ => do return (.null, ← ident ['u', 'l', 'l'] c.next)
  | 't' :: _ => do return (.bool true, ← ident ['r', 'u', 'e'] c.next)
  | 'f' :: _ => do return (.bool false, ← ident ['a', 'l', 's', 'e'] c.next)
  | '"' :: _ => do
    let (s, c) ← string c
    return (.str s, c)
  | '-' :: _ => do
    let (n, c) ← number true c.next
    return (.num n, c)
  | x :: _ =>
    if x.isDigit then do
      let (n, c) ← number false c
      return (.num n, c)
    else c.peekFault .expectedValue

/-- A value in which `depth` arrays and objects may nest. -/
def value : Nat → Cursor → Except Fault (Json × Cursor)
  | depth, c =>
    let c := c.skipBlanks
    match c.rest, depth with
    | '[' :: _, 0 => c.peekFault .recursionLimit
    | '\x7b' :: _, 0 => c.peekFault .recursionLimit
    | '[' :: _, depth + 1 => do
      let (vs, c) ← items (value depth) c.next
      return (.arr vs, c)
    | '\x7b' :: _, depth + 1 => do
      let (ms, c) ← members (value depth) c.next
      return (.obj ms, c)
    | _, _ => scalar c
termination_by structural depth => depth

/-- The number of arrays and objects that may nest. -/
def maxDepth : Nat := 127

/-- The value of a JSON text. -/
def parse (text : List Char) : Except Fault Json := do
  let (v, c) ← value maxDepth (.start text)
  let c := c.skipBlanks
  match c.rest with
  | [] => return v
  | _ => c.peekFault .trailingCharacters

end CodeTidy.Json
