import CodeTidy.Data.Datum
import CodeTidy.Text.Blank

/-!
# Widths

The width of one indentation is between one and eight columns. The setting for it is such a
width, given as a number or as a text of digits, or the word `tab` for tabs. The width of a line
is a number of columns, where zero stands for no limit.
-/

namespace CodeTidy

/-- The width of one indentation, from one to eight columns. -/
structure IndentSize where
  columns : Nat
  one_le : 1 ≤ columns := by decide
  le_eight : columns ≤ 8 := by decide
deriving DecidableEq

/-- What the indentation setting asks for. -/
inductive IndentToken where
  | width (size : IndentSize)
  | tab
deriving DecidableEq

/-- The widest line wanted, in columns. Zero stands for no limit. -/
structure LineWidth where
  columns : Nat
  lt_bound : columns < 0x10000000000000000 := by decide
deriving DecidableEq

namespace IndentSize

/-- The width of `n` columns, if there is one. -/
def ofNat? (n : Nat) : Option IndentSize :=
  if h : 1 ≤ n ∧ n ≤ 8 then some ⟨n, h.1, h.2⟩ else none

/-- Two columns, the width where nothing else is said. -/
def two : IndentSize := ⟨2, by decide, by decide⟩

/-- The width of `n` columns, or the fault that there is none. -/
def ofNat (n : Nat) : Except Datum.Fault IndentSize :=
  match ofNat? n with
  | some size => .ok size
  | none => Datum.fail (.indentOutOfRange n)

/-- A width given as a number. -/
def ofDatum (d : Datum) : Except Datum.Fault IndentSize := do
  ofNat (← d.toNatural 256 "u8")

end IndentSize

namespace IndentToken

/-- The width asked for, if the token gives one. -/
def size? : IndentToken → Option IndentSize
  | .width size => some size
  | .tab => none

/-- Does the token ask for tabs? -/
def isTab : IndentToken → Bool
  | .width _ => false
  | .tab => true

/-- The width of `n` columns. -/
def ofNat (n : Nat) : Except Datum.Fault IndentToken := do
  return .width (← IndentSize.ofNat n)

/-- The natural number below `2 ^ 64` that ASCII digits denote, with or without a plus sign. -/
def digitsValue? (s : List Char) : Option Nat :=
  let ds := match s with
    | '+' :: r => r
    | r => r
  if ds.isEmpty || !ds.all Char.isDigit then none
  else
    let n := ds.foldl (fun n d => n * 10 + (d.toNat - '0'.toNat)) 0
    if n < 0x10000000000000000 then some n else none

/-- A token written as a text. -/
def ofText (s : String) : Except Datum.Fault IndentToken :=
  let trimmed := Text.trim s.toList
  if Text.eqIgnoringAsciiCase trimmed "tab".toList || Text.eqIgnoringAsciiCase trimmed "tabs".toList
  then .ok .tab
  else
    match digitsValue? trimmed with
    | some n => ofNat n
    | none => Datum.fail (.indentText s)

/-- The natural number below 256 that a floating-point number equals, if there is one. -/
def wholeByte? (x : Float) : Option Nat :=
  (List.range 256).find? fun n => x == Float.ofNat n

/-- A token in any of its forms: a number, a whole floating-point number, or a text. -/
def ofDatum : Datum → Except Datum.Fault IndentToken
  | .int n =>
    if n < -0x8000000000000000 || 0x10000000000000000 ≤ n then
      Datum.fail (.wrongType (.wide n) expected)
    else if n < 0 then Datum.fail (.indentNegative n)
    else ofNat n.toNat
  | .real x =>
    match wholeByte? x with
    | some n => ofNat n
    | none => Datum.fail (.indentNumber x)
  | .str s => ofText s
  | d => d.mismatch expected
where
  /-- What messages say a token is. -/
  expected : String := "an indentation width between 1 and 8 or \"tab\""

/-- The token as the JSON value that stands for it. -/
def toJson : IndentToken → Json
  | .width size => .ofNat size.columns
  | .tab => .str "tab"

end IndentToken

namespace LineWidth

/-- A width given as a number. -/
def ofDatum (d : Datum) : Except Datum.Fault LineWidth :=
  match d.toNatural 0x10000000000000000 "usize" with
  | .error f => .error f
  | .ok n =>
    if h : n < 0x10000000000000000 then .ok ⟨n, h⟩
    else Datum.fail (.wrongValue (.int n) "usize")

/-- Is there no limit? -/
def isUnlimited (w : LineWidth) : Bool := w.columns == 0

/-- The greatest number of columns of a line, which is the greatest of 64 bits without a limit. -/
def limit (w : LineWidth) : Nat := if w.isUnlimited then 0xffffffffffffffff else w.columns

/-- The width in words. -/
def text (w : LineWidth) : String := if w.isUnlimited then "unlimited" else toString w.columns

end LineWidth

end CodeTidy
