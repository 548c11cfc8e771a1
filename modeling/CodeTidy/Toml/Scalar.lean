import CodeTidy.Data.Datum
import CodeTidy.Decimal.Nearest
import CodeTidy.Text.Blank

/-!
# Numbers, truth values and moments of TOML

A value without quotes and brackets is an integer, a floating-point number, a truth value, a date,
a time or both. Digits may be grouped by underscores, each between two digits.
-/

namespace CodeTidy.Toml

/-- The digits of a number written in base `base`, without the underscores between them. -/
def groupedDigits? (base : Nat) (s : List Char) : Option (List Nat) :=
  match s with
  | [] => none
  | c :: rest => do
    let d ← Decimal.digit? base c
    return d :: (← go rest)
where
  /-- The digits behind a digit. -/
  go : List Char → Option (List Nat)
    | [] => some []
    | '_' :: c :: rest => do
      let d ← Decimal.digit? base c
      return d :: (← go rest)
    | c :: rest => do
      let d ← Decimal.digit? base c
      return d :: (← go rest)

/-- Takes a sign off. The flag tells whether it was a minus. -/
def takeSign : List Char → Bool × List Char
  | '-' :: rest => (true, rest)
  | '+' :: rest => (false, rest)
  | s => (false, s)

/-- The digits of a decimal integer, which has no zero in front of other digits. -/
def wholeDigits? (s : List Char) : Option (List Nat) := do
  let ds ← groupedDigits? 10 s
  match ds with
  | 0 :: _ :: _ => none
  | _ => some ds

/-- An integer, or a number beyond all integer types. -/
def ofWhole (n : Int) : Datum :=
  if n < -0x80000000000000000000000000000000 then .beyond true
  else if 0x100000000000000000000000000000000 ≤ n then .beyond true
  else .int n

/-- An integer in any of its notations. -/
def integer? (s : List Char) : Option Datum :=
  match s with
  | '0' :: 'x' :: ds => (groupedDigits? 16 ds).map fun ds => ofWhole (Decimal.ofDigits 16 ds)
  | '0' :: 'o' :: ds => (groupedDigits? 8 ds).map fun ds => ofWhole (Decimal.ofDigits 8 ds)
  | '0' :: 'b' :: ds => (groupedDigits? 2 ds).map fun ds => ofWhole (Decimal.ofDigits 2 ds)
  | _ => do
    let (negative, rest) := takeSign s
    let n := Decimal.ofDigits 10 (← wholeDigits? rest)
    return ofWhole (if negative then -n else n)

/-- The exponent of a number: the part behind the `e`. -/
def exponent? (s : List Char) : Option Int := do
  let (negative, rest) := takeSign s
  let n := Decimal.ofDigits 10 (← groupedDigits? 10 rest)
  return if negative then -n else n

/-- A floating-point number in decimal notation, without its sign. -/
def decimal? (s : List Char) : Option Float := do
  let isMark (c : Char) : Bool := c == 'e' || c == 'E'
  let mantissa := s.takeWhile (!isMark ·)
  let whole := mantissa.takeWhile (· != '.')
  let fraction := mantissa.drop whole.length
  let tail := s.drop mantissa.length
  let ds ← wholeDigits? whole
  let fs ← match fraction with
    | [] => some []
    | _ :: fs => groupedDigits? 10 fs
  let e ← match tail with
    | [] => some 0
    | _ :: es => exponent? es
  if fraction.isEmpty && tail.isEmpty then none
  else return Decimal.nearest (Decimal.ofDigits 10 (ds ++ fs)) (e - fs.length)

/-- A floating-point number. -/
def float? (s : List Char) : Option Datum := do
  let (negative, rest) := takeSign s
  let signed (x : Float) : Float := if negative then -x else x
  if rest == ['i', 'n', 'f'] then return .real (signed (1 / 0))
  else if rest == ['n', 'a', 'n'] then return .real (0 / 0)
  else
    let x ← decimal? rest
    return if x.isInf then .beyond false else .real (signed x)

/-- Takes two digits that denote a number from `lo` to `hi` off. -/
def twoDigits? (lo hi : Nat) : List Char → Option (Nat × List Char)
  | c :: d :: rest =>
    if Text.isAsciiDigit c && Text.isAsciiDigit d then
      let n := (c.toNat - '0'.toNat) * 10 + (d.toNat - '0'.toNat)
      if lo ≤ n && n ≤ hi then some (n, rest) else none
    else none
  | _ => none

/-- Takes one of some characters off. -/
def oneOf? (cs : List Char) : List Char → Option (List Char)
  | c :: rest => if cs.contains c then some rest else none
  | [] => none

/-- The number of days of a month. -/
def daysOf (year month : Nat) : Nat :=
  if month == 2 then
    if year % 4 == 0 && (year % 100 != 0 || year % 400 == 0) then 29 else 28
  else if [4, 6, 9, 11].contains month then 30
  else 31

/-- Takes a date off. -/
def date? (s : List Char) : Option (List Char) := do
  let (century, s) ← twoDigits? 0 99 s
  let (year, s) ← twoDigits? 0 99 s
  let s ← oneOf? ['-'] s
  let (month, s) ← twoDigits? 1 12 s
  let s ← oneOf? ['-'] s
  let (_, s) ← twoDigits? 1 (daysOf (century * 100 + year) month) s
  return s

/-- Takes a time of the day off. Seconds and their fraction may be missing. -/
def time? (s : List Char) : Option (List Char) := do
  let (_, s) ← twoDigits? 0 23 s
  let s ← oneOf? [':'] s
  let (_, s) ← twoDigits? 0 59 s
  match s with
  | ':' :: s =>
    let (_, s) ← twoDigits? 0 60 s
    match s with
    | '.' :: c :: rest =>
      if Text.isAsciiDigit c then return rest.dropWhile Text.isAsciiDigit else none
    | _ => return s
  | _ => return s

/-- Is the text an offset from universal time, or nothing? -/
def isOffset (s : List Char) : Bool :=
  match s with
  | [] | ['Z'] | ['z'] => true
  | c :: rest => (c == '+' || c == '-') && (do
      let (_, s) ← twoDigits? 0 23 rest
      let s ← oneOf? [':'] s
      let (_, s) ← twoDigits? 0 59 s
      return s.isEmpty) == some true

/-- Is the text a date, a time or both? -/
def isMoment (s : List Char) : Bool :=
  match date? s with
  | some [] => true
  | some rest => (do
      let rest ← oneOf? ['T', 't', ' '] rest
      return isOffset (← time? rest)) == some true
  | none => time? s == some []

/-- The value that a text without quotes and brackets denotes. -/
def scalar? (s : List Char) : Option Datum :=
  if s == "true".toList then some (.bool true)
  else if s == "false".toList then some (.bool false)
  else if isMoment s then some (.moment (String.ofList s))
  else integer? s <|> float? s

end CodeTidy.Toml
