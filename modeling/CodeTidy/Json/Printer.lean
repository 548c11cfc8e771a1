import CodeTidy.Decimal.Shortest
import CodeTidy.Json.Basic

/-!
# Writing JSON

The compact form has no blanks at all. The indented form puts each item and each member on a line
of its own, one unit of indentation deeper than its container, and a blank behind each colon;
empty containers stay on one line.
-/

namespace CodeTidy.Json

/-- Two hexadecimal digits. -/
def hexPair (n : Nat) : List Char := [Nat.digitChar (n / 16), Nat.digitChar (n % 16)]

/-- One character inside a string. -/
def stringChar (c : Char) : List Char :=
  if c == '"' then ['\\', '"']
  else if c == '\\' then ['\\', '\\']
  else if c == '\n' then ['\\', 'n']
  else if c == '\r' then ['\\', 'r']
  else if c == '\t' then ['\\', 't']
  else if c == '\x08' then ['\\', 'b']
  else if c == '\x0c' then ['\\', 'f']
  else if c.toNat < 0x20 then ['\\', 'u', '0', '0'] ++ hexPair c.toNat
  else [c]

/-- A string between quotes. -/
def stringText (s : String) : List Char := '"' :: s.toList.flatMap stringChar ++ ['"']

/-- An integer in decimal. -/
def intText (n : Int) : List Char :=
  if n < 0 then '-' :: Decimal.natDigits n.natAbs else Decimal.natDigits n.natAbs

/-- A number. -/
def Number.text : Number → List Char
  | .int n => intText n
  | .real x => (Decimal.number ['+'] x).toList

mutual

/-- The compact form. -/
def compact : Json → List Char
  | .null => ['n', 'u', 'l', 'l']
  | .bool true => ['t', 'r', 'u', 'e']
  | .bool false => ['f', 'a', 'l', 's', 'e']
  | .num n => n.text
  | .str s => stringText s
  | .arr [] => ['[', ']']
  | .arr (v :: vs) => '[' :: (compact v ++ (compactItems vs ++ [']']))
  | .obj [] => ['\x7b', '\x7d']
  | .obj ((k, v) :: ms) =>
    '\x7b' :: (stringText k ++ (':' :: (compact v ++ (compactMembers ms ++ ['\x7d']))))

/-- The compact forms of values, each behind a comma. -/
def compactItems : List Json → List Char
  | [] => []
  | v :: vs => ',' :: (compact v ++ compactItems vs)

/-- The compact forms of members, each behind a comma. -/
def compactMembers : List (String × Json) → List Char
  | [] => []
  | (k, v) :: ms => ',' :: (stringText k ++ (':' :: (compact v ++ compactMembers ms)))

end

/-- A line break and `depth` units of indentation. -/
def newline (unit : List Char) (depth : Nat) : List Char :=
  '\n' :: (List.replicate depth unit).flatten

mutual

/-- The indented form inside `depth` containers. -/
def pretty (unit : List Char) (depth : Nat) : Json → List Char
  | .null => ['n', 'u', 'l', 'l']
  | .bool true => ['t', 'r', 'u', 'e']
  | .bool false => ['f', 'a', 'l', 's', 'e']
  | .num n => n.text
  | .str s => stringText s
  | .arr [] => ['[', ']']
  | .arr (v :: vs) =>
    '[' :: (newline unit (depth + 1) ++ (pretty unit (depth + 1) v
      ++ (prettyItems unit (depth + 1) vs ++ (newline unit depth ++ [']']))))
  | .obj [] => ['\x7b', '\x7d']
  | .obj ((k, v) :: ms) =>
    '\x7b' :: (newline unit (depth + 1) ++ (stringText k ++ (':' :: ' ' ::
      (pretty unit (depth + 1) v
        ++ (prettyMembers unit (depth + 1) ms ++ (newline unit depth ++ ['\x7d']))))))

/-- The indented forms of items, each behind a comma and on a line of its own. -/
def prettyItems (unit : List Char) (depth : Nat) : List Json → List Char
  | [] => []
  | v :: vs => ',' :: (newline unit depth ++ (pretty unit depth v ++ prettyItems unit depth vs))

/-- The indented forms of members, each behind a comma and on a line of its own. -/
def prettyMembers (unit : List Char) (depth : Nat) : List (String × Json) → List Char
  | [] => []
  | (k, v) :: ms =>
    ',' :: (newline unit depth ++ (stringText k ++ (':' :: ' ' ::
      (pretty unit depth v ++ prettyMembers unit depth ms))))

end

/-- The compact form as a string. -/
def toText (v : Json) : String := String.ofList (compact v)

end CodeTidy.Json
