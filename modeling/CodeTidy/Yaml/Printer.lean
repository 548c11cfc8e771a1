import CodeTidy.Decimal.Shortest
import CodeTidy.Yaml.Value

/-!
# The written form of YAML values

Lists and maps are written as blocks, two columns deeper than what is around them; only the items of
a list behind a key stay in the column of the key. A text is written plainly if it then reads back
as the same text and could not be taken for anything else by other readers, with its line feeds as a
block of lines, and else between quotes.

The functions here take what has been written so far, the last character first, and write behind it.
-/

namespace CodeTidy.Yaml

/-! ## Texts -/

/-- A character that need not be escaped. -/
def isPrintable (c : Char) : Bool :=
  let n := c.toNat
  c == '\n' || (0x20 ≤ n && n ≤ 0x7e)
    || (0xa0 ≤ n && n != 0xfeff && n != 0xfffe && n != 0xffff)

/-- Is there a character that satisfies `p` right in front of one that satisfies `q`? -/
def hasPair (p q : Char → Bool) (s : List Char) : Bool :=
  (s.zip s.tail).any fun (c, d) => p c && q d

/-- Words that stood for truth values in the first version of YAML. -/
def oldTruths : List (List Char) :=
  ["y", "Y", "yes", "Yes", "YES", "n", "N", "no", "No", "NO", "on", "On", "ON", "off", "Off",
    "OFF"].map String.toList

/-- Could the text be taken for something else, such as a number or a truth value? -/
def isAmbiguous (s : List Char) : Bool :=
  let words := ["true", "false", "null", "~"].map String.toList
  let first := match s with
    | [] => true
    | c :: _ => Text.isAsciiDigit c || c == '-' || c == '.' || c == '+'
  first || words.contains (s.map Text.lowerAscii) || oldTruths.contains s

/-- Is there a colon in front of white space or a number sign behind it? `blank` tells whether there
is white space in front of the text. -/
def hasMark (blank : Bool) : List Char → Bool
  | [] => false
  | c :: s => (c == ':' && atGap s) || (c == '#' && blank) || hasMark (isGap c) s

/-- Does the text start with a character that a plain text cannot start with? -/
def startsMarked : List Char → Bool
  | [] => false
  | '?' :: s => atGap s
  | c :: _ => c == ' ' || ",[]{}&*!|>'\"%@\x60".toList.contains c

/-- May the text be written plainly? -/
def isPlain (s : List Char) : Bool :=
  !isAmbiguous s && !startsMarked s && !hasMark true s && !s.any isBreak && s.getLast? != some ' '

/-- How a text is written. -/
inductive Style where
  | plain
  | single
  | double
  | lines
deriving DecidableEq

/-- The style of a text. Spaces at the end of a line are kept only between double quotes. -/
def Style.ofText (s : List Char) : Style :=
  let space (c : Char) : Bool := c == ' '
  if s.any (!isPrintable ·) || hasPair space isBreak s then .double
  else if s.contains '\n' then if s.getLast? == some ' ' then .double else .lines
  else if isPlain s then .plain
  else if hasPair isBreak space s then .double
  else .single

/-- Writes `s`. -/
def put (s acc : List Char) : List Char := s.reverse ++ acc

/-- Writes `n` spaces. -/
def putSpaces (n : Nat) (acc : List Char) : List Char := List.replicate n ' ' ++ acc

/-- Writes a space unless there is white space already, or nothing at all. -/
def spaced (acc : List Char) : List Char :=
  match acc with
  | [] => []
  | c :: _ => if isGap c then acc else ' ' :: acc

/-- Starts a new line at a column. -/
def newLine (column : Nat) (acc : List Char) : List Char :=
  putSpaces column (match acc with
    | [] => []
    | c :: _ => if isBreak c then acc else '\n' :: acc)

/-- Writes a text of several lines, each of which starts at a column. `start` tells whether the
first line starts here. -/
def putLines (column : Nat) (start : Bool) : List Char → List Char → List Char
  | [], acc => acc
  | c :: s, acc =>
    if isBreak c then putLines column true s (c :: acc)
    else putLines column false s (c :: (if start then putSpaces column acc else acc))

/-- The sign for the breaks at the end of a block of lines: whether there are none, or more than
one, or nothing else. -/
def chompingSign (s : List Char) : List Char :=
  match s.reverse with
  | [] => ['-']
  | c :: rest =>
    if !isBreak c then ['-']
    else
      match rest with
      | [] => ['+']
      | d :: _ => if isBreak d then ['+'] else []

/-- Writes a text as a block of lines. The indentation is given if the text starts with white
space. -/
def putBlock (column : Nat) (s acc : List Char) : List Char :=
  let hint := match s with
    | c :: _ => if isGap c then ['2'] else []
    | [] => []
  putLines column true s (put ('|' :: hint ++ chompingSign s ++ ['\n']) acc)

/-- Writes a text between single quotes. -/
def putSingle (column : Nat) (s acc : List Char) : List Char :=
  let doubled := s.flatMap fun c => if c == '\'' then ['\'', '\''] else [c]
  let acc := putLines column false doubled ('\'' :: acc)
  '\'' :: (if acc.head?.any isBreak then putSpaces column acc else acc)

/-- The last `n` hexadecimal digits of a code point. -/
def hexDigits : Nat → Nat → List Char
  | 0, _ => []
  | n + 1, code => hexDigits n (code / 16) ++ [Text.upperAscii (Nat.digitChar (code % 16))]

/-- The escape that stands for a character. -/
def escape (c : Char) : List Char :=
  match simpleEscapes.find? (·.2 == c) with
  | some (x, _) => ['\\', x]
  | none =>
    let n := c.toNat
    if n ≤ 0xff then '\\' :: 'x' :: hexDigits 2 n
    else if n ≤ 0xffff then '\\' :: 'u' :: hexDigits 4 n
    else '\\' :: 'U' :: hexDigits 8 n

/-- Writes a text between double quotes. -/
def putDouble (s acc : List Char) : List Char :=
  let escaped (c : Char) : Bool := !isPrintable c || isBreak c || c == '"' || c == '\\'
  put ('"' :: s.flatMap (fun c => if escaped c then escape c else [c]) ++ ['"']) acc

/-- Writes a text, whose further lines start at a column. -/
def putText (column : Nat) (s acc : List Char) : List Char :=
  match Style.ofText s with
  | .plain => put s acc
  | .single => putSingle column s acc
  | .double => putDouble s acc
  | .lines => putBlock column s acc

/-! ## Numbers and tags -/

/-- The text of an integer. -/
def integerText (n : Int) : List Char :=
  if n < 0 then '-' :: Decimal.natDigits n.natAbs else Decimal.natDigits n.natAbs

/-- The text of a floating-point number. -/
def realText (x : Float) : List Char :=
  if x.isNaN then ".nan".toList
  else if x.isInf then if x < 0 then "-.inf".toList else ".inf".toList
  else (Decimal.number [] x).toList

/-- A tag with its exclamation mark. -/
def fullTag (tag : List Char) : List Char := if tag.head? == some '!' then tag else '!' :: tag

/-- The text of a part of a tag. Most characters but letters and digits are escaped. -/
def tagEscaped (s : List Char) : List Char :=
  let kept (c : Char) : Bool := isWord c || ";/?:@&=+$,.~*'()[]".toList.contains c
  s.flatMap fun c =>
    if kept c then [c]
    else (String.singleton c).toUTF8.toList.flatMap fun b => '%' :: hexDigits 2 b.toNat

/-- The text of a tag. A tag that is nothing but its exclamation mark is enclosed. -/
def tagForm (tag : List Char) : List Char :=
  match fullTag tag with
  | '!' :: c :: rest => '!' :: tagEscaped (c :: rest)
  | whole => '!' :: '<' :: tagEscaped whole ++ ['>']

/-! ## Values -/

/-- The number of bytes of a value that may stand in front of a colon. A text of several lines must
not, nor must a list or a map that is not empty. -/
def Value.keyLength? : Value → Option Nat
  | .null => some 4
  | .bool b => some (if b then 4 else 5)
  | .int n => some (integerText n).length
  | .real x => some (realText x).length
  | .str s => if s.any isBreak then none else some (Text.byteLength s)
  | .list vs => if vs.isEmpty then some 0 else none
  | .map es => if es.isEmpty then some 0 else none
  | .tagged t v => v.keyLength?.map (Text.byteLength (fullTag t) + ·)

/-- Is the value written as a key in front of a colon? Longer keys are marked by a question mark. -/
def Value.isShortKey (k : Value) : Bool := k.keyLength?.any (· ≤ 128)

/-- Where a value is written. -/
structure Place where
  /-- The column of the list or the map around the value. -/
  column : Option Nat
  /-- Is it a map? -/
  inMap : Bool
  /-- May a block start on this line, since there is nothing on it but the marks of blocks? -/
  fresh : Bool

/-- The place of a whole document. -/
def Place.whole : Place := ⟨none, false, true⟩

/-- The column of a map at the place. -/
def Place.mapColumn (p : Place) : Nat :=
  match p.column with
  | none => 0
  | some n => n + 2

/-- The column of a list at the place. -/
def Place.listColumn (p : Place) : Nat :=
  match p.column with
  | none => 0
  | some n => if p.inMap && !p.fresh then n else n + 2

/-- The column of further lines of a text at the place. -/
def Place.textColumn (p : Place) : Nat := p.column.getD 0 + 2

/-- Goes to where the next item or entry of a block starts. The first may start on the line. -/
def startPart (column : Nat) (first : Bool) (acc : List Char) : List Char :=
  if first then spaced acc else newLine column acc

mutual

/-- Writes a value. -/
def Value.write (p : Place) : Value → List Char → List Char
  | .null, acc => put "null".toList (spaced acc)
  | .bool b, acc => put (if b then "true" else "false").toList (spaced acc)
  | .int n, acc => put (integerText n) (spaced acc)
  | .real x, acc => put (realText x) (spaced acc)
  | .str s, acc => putText p.textColumn s (spaced acc)
  | .list [], acc => put ['[', ']'] (spaced acc)
  | .list (v :: vs), acc => writeItems p.listColumn p.fresh (v :: vs) acc
  | .map [], acc => put ['\x7b', '\x7d'] (spaced acc)
  | .map (e :: es), acc => writeEntries p.mapColumn p.fresh (e :: es) acc
  | .tagged t v, acc => v.write { p with fresh := false } (put (tagForm t) (spaced acc))

/-- Writes the items of a list. -/
def writeItems (column : Nat) (first : Bool) : List Value → List Char → List Char
  | [], acc => acc
  | v :: vs, acc =>
    let acc := '-' :: startPart column first acc
    writeItems column false vs (v.write ⟨some column, false, true⟩ acc)

/-- Writes the entries of a map. -/
def writeEntries (column : Nat) (first : Bool) : List (Value × Value) → List Char → List Char
  | [], acc => acc
  | (k, v) :: es, acc =>
    let acc := startPart column first acc
    let acc :=
      if k.isShortKey then
        v.write ⟨some column, true, false⟩ (':' :: k.write ⟨some column, true, false⟩ acc)
      else
        let acc := k.write ⟨some column, true, true⟩ ('?' :: acc)
        v.write ⟨some column, true, true⟩ (':' :: newLine column acc)
    writeEntries column false es acc

end

/-- Is the value a map of one entry or has it a tag? -/
def Value.isSingle : Value → Bool
  | .map [_] => true
  | .tagged .. => true
  | _ => false

mutual

/-- Has the value a written form? A map without a tag has none if its only key is itself a map of
one entry or has a tag. -/
def Value.isWritable (hasTag : Bool) : Value → Bool
  | .list vs => itemsWritable vs
  | .map [(k, v)] => (hasTag || !k.isSingle) && k.isWritable false && v.isWritable false
  | .map es => entriesWritable es
  | .tagged _ v => v.isWritable true
  | _ => true

/-- Have all items a written form? -/
def itemsWritable : List Value → Bool
  | [] => true
  | v :: vs => v.isWritable false && itemsWritable vs

/-- Have all keys and values a written form? -/
def entriesWritable : List (Value × Value) → Bool
  | [] => true
  | (k, v) :: es => k.isWritable false && v.isWritable false && entriesWritable es

end

/-- The written form of a value, if it has one. -/
def Value.print? (v : Value) : Option (List Char) :=
  if v.isWritable false then some (newLine 0 (v.write .whole [])).reverse else none

end CodeTidy.Yaml
