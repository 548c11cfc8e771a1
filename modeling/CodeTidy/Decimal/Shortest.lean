/-!
# Shortest decimals

The decimal form of a floating-point number is the one with the fewest significant digits that
reads back to the number, and among those the nearest. All of it is exact arithmetic on natural
numbers: the bits of the number give a mantissa and a power of two, the reals that round to the
number form an interval around it, and the search tries one grid of decimals after another.
-/

namespace CodeTidy.Decimal

/-- A finite binary number without its sign: `mantissa * 2 ^ exponent`. -/
structure Binary where
  mantissa : Nat
  exponent : Int
  /-- The number below is only half as far away as the number above. -/
  narrowBelow : Bool

/-- The magnitude of a finite number. Not meant for infinities and for what is no number. -/
def Binary.ofFloat (x : Float) : Binary :=
  let bits := x.toBits
  let field := ((bits >>> 52) &&& 0x7ff).toNat
  let fraction := (bits &&& 0xfffffffffffff).toNat
  if field == 0 then ⟨fraction, -1074, false⟩
  else ⟨0x10000000000000 + fraction, (field : Int) - 1075, fraction == 0 && field > 1⟩

/-- Which of two equally near decimals is taken. -/
inductive Tie where
  | even
  | up

/-- The decimal `significand * 10 ^ exponent`. -/
structure Scaled where
  significand : Nat
  exponent : Int
deriving DecidableEq

/-- The power of ten to an exponent, or one if the exponent is negative. -/
def powerOfTen (exponent : Int) : Nat := Nat.pow 10 exponent.toNat

/-- Compares `a * 10 ^ i` with `n * 2 ^ j`. -/
def compareScaled (a : Nat) (i : Int) (n : Nat) (j : Int) : Ordering :=
  compare ((a * powerOfTen i) <<< (-j).toNat) ((n * powerOfTen (-i)) <<< j.toNat)

/-- Does the decimal lie among the reals that round to the number? The ends of the interval
belong to it exactly when the mantissa is even. -/
def Binary.readsBack (x : Binary) (d : Scaled) : Bool :=
  let low := if x.narrowBelow then 4 * x.mantissa - 1 else 4 * x.mantissa - 2
  let high := 4 * x.mantissa + 2
  let ends := x.mantissa % 2 == 0
  let below := compareScaled d.significand d.exponent low (x.exponent - 2)
  let above := compareScaled d.significand d.exponent high (x.exponent - 2)
  (below == .gt || (ends && below == .eq)) && (above == .lt || (ends && above == .eq))

/-- The least `k` for which the number lies below `10 ^ k`, looked for around the estimate that
its binary logarithm gives. -/
def Binary.scale (x : Binary) : Int :=
  let estimate := ((Nat.log2 x.mantissa : Int) + x.exponent) * 30103 / 100000
  let reaches (k : Int) : Bool := compareScaled 1 k x.mantissa x.exponent == .gt
  (([-1, 0, 1, 2].map (estimate + ·)).find? reaches).getD (estimate + 3)

/-- The nearest decimal on the grid of `10 ^ grid` that reads back, if one does. Only the two
neighbours of the number on the grid can. -/
def Binary.onGrid (x : Binary) (tie : Tie) (grid : Int) : Option Scaled :=
  let num := (x.mantissa * powerOfTen (-grid)) <<< x.exponent.toNat
  let den := powerOfTen grid <<< (-x.exponent).toNat
  let lower := num / den
  let below : Scaled := ⟨lower, grid⟩
  let above : Scaled := ⟨lower + 1, grid⟩
  match x.readsBack below, x.readsBack above with
  | false, false => none
  | true, false => some below
  | false, true => some above
  | true, true =>
    match compare (2 * num) ((2 * lower + 1) * den), tie with
    | .lt, _ => some below
    | .gt, _ => some above
    | .eq, .up => some above
    | .eq, .even => if lower % 2 == 0 then some below else some above

/-- Drops trailing zeros of the significand, at most `fuel` of them. -/
def Scaled.strip : Nat → Scaled → Scaled
  | 0, d => d
  | fuel + 1, d =>
    if d.significand != 0 && d.significand % 10 == 0 then
      strip fuel ⟨d.significand / 10, d.exponent + 1⟩
    else d

/-- The shortest decimal of a positive number. Seventeen digits always read back; should they
not, the exact value is returned rather than a guess. -/
def Binary.shortest (x : Binary) (tie : Tie) : Scaled :=
  if x.mantissa == 0 then ⟨0, 0⟩
  else
    let k := x.scale
    match (List.range 17).findSome? (fun n => x.onGrid tie (k - (n + 1 : Nat))) with
    | some d => d.strip 20
    | none =>
      ⟨(x.mantissa * Nat.pow 5 (-x.exponent).toNat) <<< x.exponent.toNat, min x.exponent 0⟩

/-- The digits of a natural number. -/
def natDigits (n : Nat) : List Char := Nat.toDigits 10 n

/-- The decimal with its point written where it stands, and with `whole` behind a whole number. -/
def Scaled.positional (d : Scaled) (whole : List Char) : List Char :=
  let digits := natDigits d.significand
  if 0 ≤ d.exponent then digits ++ List.replicate d.exponent.toNat '0' ++ whole
  else
    let places := (-d.exponent).toNat
    if places < digits.length then
      digits.take (digits.length - places) ++ '.' :: digits.drop (digits.length - places)
    else '0' :: '.' :: List.replicate (places - digits.length) '0' ++ digits

/-- The decimal with one digit before its point and a power of ten. `plus` is written in front of a
power that is not negative. -/
def Scaled.scientific (plus : List Char) (d : Scaled) : List Char :=
  let digits := natDigits d.significand
  let power := d.exponent + digits.length - 1
  let mantissa := match digits with
    | [] => []
    | [a] => [a]
    | a :: rest => a :: '.' :: rest
  mantissa ++ 'e' :: (if power < 0 then ['-'] else plus) ++ natDigits power.natAbs

/-- Is the sign bit set? -/
def isNegative (x : Float) : Bool := x.toBits >>> 63 == 1

/-- A finite number with the fewest digits, written positionally from `0.00001` up to sixteen
digits before the point and with a power of ten beyond, and always with a point or a power. `plus`
is written in front of a power that is not negative. -/
def number (plus : List Char) (x : Float) : String :=
  let d := (Binary.ofFloat x).shortest .even
  let power := d.exponent + (natDigits d.significand).length - 1
  let text := if -5 ≤ power && power ≤ 15 then d.positional ['.', '0'] else d.scientific plus
  String.ofList (if isNegative x then '-' :: text else text)

/-- Any number with the fewest digits, always written positionally. `whole` is written behind a
whole number. -/
def plain (whole : String) (x : Float) : String :=
  if x.isNaN then "NaN"
  else
    let sign := if isNegative x then "-" else ""
    if x.isInf then sign ++ "inf"
    else sign ++ String.ofList (((Binary.ofFloat x).shortest .up).positional whole.toList)

end CodeTidy.Decimal
