/-!
# White space, trimming and lines

White space is the Unicode property of that name, 25 characters in all. Texts are lists of
characters here, and the functions on strings at the end of the file go through them.
-/

namespace CodeTidy.Text

/-- White space in the sense of Unicode. -/
def isBlank (c : Char) : Bool :=
  let n := c.toNat
  n == 0x20 || (0x9 ≤ n && n ≤ 0xd) || n == 0x85 || n == 0xa0 || n == 0x1680
    || (0x2000 ≤ n && n ≤ 0x200a) || n == 0x2028 || n == 0x2029 || n == 0x202f || n == 0x205f
    || n == 0x3000

/-- Only white space, or nothing at all. -/
def allBlank (s : List Char) : Bool := s.all isBlank

/-- The text without its leading white space. -/
def trimStart (s : List Char) : List Char := s.dropWhile isBlank

/-- The text without its trailing white space. -/
def trimEnd (s : List Char) : List Char := (s.reverse.dropWhile isBlank).reverse

/-- The text without white space at either end. -/
def trim (s : List Char) : List Char := trimEnd (trimStart s)

/-- The text cut after each line feed, line feeds included. -/
def pieces (s : List Char) : List (List Char) :=
  s.foldr (fun c ls =>
    if c == '\n' then ['\n'] :: ls
    else match ls with
      | [] => [[c]]
      | l :: ls => (c :: l) :: ls) []

/-- The line without its terminator, which is a line feed or a carriage return and a line feed. -/
def chomp (l : List Char) : List Char :=
  match l.reverse with
  | '\n' :: '\r' :: r => r.reverse
  | '\n' :: r => r.reverse
  | _ => l

/-- The lines of a text, without their terminators. A line feed at the end of the text opens no
further line, and a carriage return that no line feed follows belongs to its line. -/
def lines (s : List Char) : List (List Char) := (pieces s).map chomp

/-- The text cut at each character that satisfies `p`, with those characters left out. There is
one part more than there are cuts. -/
def splitOn (p : Char → Bool) (s : List Char) : List (List Char) :=
  s.foldr (fun c ls =>
    if p c then [] :: ls
    else match ls with
      | [] => [[c]]
      | l :: ls => (c :: l) :: ls) [[]]

/-- The words of a text, divided by white space. -/
def words (s : List Char) : List (List Char) :=
  (splitOn isBlank s).filter (!·.isEmpty)

/-- Does the text contain `sub` as a contiguous part? -/
def hasPart (sub : List Char) : List Char → Bool
  | [] => sub.isEmpty
  | c :: s => sub.isPrefixOf (c :: s) || hasPart sub s

/-- Does the text end in one of the characters? -/
def endsIn (cs : List Char) (s : List Char) : Bool :=
  match s.getLast? with
  | some c => cs.contains c
  | none => false

/-- The number of bytes of the UTF-8 form. -/
def byteLength (s : List Char) : Nat := s.foldl (fun n c => n + c.utf8Size) 0

/-- The parts with `sep` between each two. -/
def joinWith (sep : List Char) : List (List Char) → List Char
  | [] => []
  | l :: ls => ls.foldl (fun acc l => acc ++ sep ++ l) l

/-- The string without white space at either end. -/
def trimString (s : String) : String := String.ofList (trim s.toList)

/-- An ASCII letter in lower case, any other character as it is. -/
def lowerAscii (c : Char) : Char :=
  if 'A' ≤ c && c ≤ 'Z' then Char.ofNat (c.toNat + 32) else c

/-- An ASCII letter in upper case, any other character as it is. -/
def upperAscii (c : Char) : Char :=
  if 'a' ≤ c && c ≤ 'z' then Char.ofNat (c.toNat - 32) else c

/-- Equality that ignores the case of ASCII letters. -/
def eqIgnoringAsciiCase (s t : List Char) : Bool := s.map lowerAscii == t.map lowerAscii

/-- A letter of ASCII. -/
def isAsciiLetter (c : Char) : Bool := ('a' ≤ c && c ≤ 'z') || ('A' ≤ c && c ≤ 'Z')

/-- A decimal digit of ASCII. -/
def isAsciiDigit (c : Char) : Bool := '0' ≤ c && c ≤ '9'

/-- A letter or decimal digit of ASCII. -/
def isAsciiAlphanumeric (c : Char) : Bool := isAsciiLetter c || isAsciiDigit c

end CodeTidy.Text
