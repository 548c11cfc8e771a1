import CodeTidy.Text.Blank
import CodeTidy.Text.Letter

/-!
# Text patterns

A pattern is a regular expression with anchors. Whether it matches somewhere in a text is decided
by reading the text once. What remains to be matched behind a character is again a list of
patterns, `Pattern.after`; it depends on the characters around the place because of the anchors.
A scan keeps all remainders that are alive, each once, so its time is linear in the text.
-/

namespace CodeTidy

/-- A set of characters. -/
inductive CharSet where
  | none
  | range (first last : Char)
  | word
  | blank
  | digit
  | union (a b : CharSet)
  | complement (a : CharSet)
  /-- The set together with the other case of its ASCII letters. -/
  | caseless (a : CharSet)
deriving DecidableEq

/-- The characters that are equal to `c` up to case, as far as ASCII letters are concerned. Two
letters beyond ASCII belong to an ASCII letter: the long s and the Kelvin sign. -/
def caseOrbit (c : Char) : List Char :=
  let low := if c == 'ſ' then 's' else if c == '\u212a' then 'k' else Text.lowerAscii c
  if !Text.isAsciiLetter low then [c]
  else
    [low, Text.upperAscii low] ++
      (if low == 's' then ['ſ'] else if low == 'k' then ['\u212a'] else [])

/-- Does the set hold the character? -/
def CharSet.contains : CharSet → Char → Bool
  | .none, _ => false
  | .range first last, c => first ≤ c && c ≤ last
  | .word, c => Text.isWordChar c
  | .blank, c => Text.isBlank c
  | .digit, c => Text.isDecimalDigit c
  | .union a b, c => a.contains c || b.contains c
  | .complement a, c => !a.contains c
  | .caseless a, c => (caseOrbit c).any a.contains

/-- A condition on a place between two characters. -/
inductive Anchor where
  | textStart
  | textEnd
  | lineStart
  | lineEnd
  | wordBoundary
deriving DecidableEq

/-- Does the condition hold between the two characters, where `none` is an end of the text? -/
def Anchor.holds (before next : Option Char) : Anchor → Bool
  | .textStart => before.isNone
  | .textEnd => next.isNone
  | .lineStart => before.isNone || before == some '\n'
  | .lineEnd => next.isNone || next == some '\n'
  | .wordBoundary => before.any Text.isWordChar != next.any Text.isWordChar

/-- A regular expression with anchors. -/
inductive Pattern where
  | fail
  | empty
  | char (set : CharSet)
  | anchor (a : Anchor)
  | seq (p q : Pattern)
  | alt (p q : Pattern)
  | star (p : Pattern)
deriving DecidableEq

namespace Pattern

/-- The sequence of two patterns, where the empty pattern in front is dropped. -/
def andThen : Pattern → Pattern → Pattern
  | .empty, q => q
  | p, q => .seq p q

/-- Does the pattern match the empty text between the two characters? -/
def nullable (before next : Option Char) : Pattern → Bool
  | .fail => false
  | .empty => true
  | .char _ => false
  | .anchor a => a.holds before next
  | .seq p q => p.nullable before next && q.nullable before next
  | .alt p q => p.nullable before next || q.nullable before next
  | .star _ => true

/-- What may remain to be matched once `c`, which stands behind `before`, has been read. -/
def after (before : Option Char) (c : Char) : Pattern → List Pattern
  | .fail => []
  | .empty => []
  | .char set => if set.contains c then [.empty] else []
  | .anchor _ => []
  | .seq p q =>
    let rest := (p.after before c).map (·.andThen q)
    if p.nullable before (some c) then rest ++ q.after before c else rest
  | .alt p q => p.after before c ++ q.after before c
  | .star p => (p.after before c).map (·.andThen (.star p))

/-- Reads the text behind `before` with the remainders in `live`. A match may start at any place,
so the whole pattern is always among what may come next. -/
def scan (p : Pattern) (before : Option Char) (live : List Pattern) : List Char → Bool
  | [] => p.nullable before none || live.any (·.nullable before none)
  | c :: rest =>
    p.nullable before (some c) || live.any (·.nullable before (some c)) ||
      scan p (some c)
        (match live.flatMap (·.after before c) ++ p.after before c with
          | [] => []
          | [q] => [q]
          | qs => qs.eraseDups)
        rest

/-- Does the pattern match somewhere in the text? -/
def isFoundIn (p : Pattern) (text : List Char) : Bool := p.scan none [] text

end Pattern

end CodeTidy
