/-!
# Sorted tables of code points

A property of characters is stored as its closed ranges of code points, ascending and apart, and
is tested by binary search. All tables of this library follow version 17 of the Unicode
character database.
-/

namespace CodeTidy.Text

/-- Closed ranges of code points, ascending and apart. -/
abbrev RangeTable := Array (Nat × Nat)

namespace RangeTable

/-- Is `n` in a range whose index lies in `[lo, hi)`? The interval is halved at most `fuel`
times, so `log2 (hi - lo) + 1` is enough. -/
def search (t : RangeTable) (n : Nat) : Nat → Nat → Nat → Bool
  | 0, _, _ => false
  | fuel + 1, lo, hi =>
    if lo < hi then
      let mid := (lo + hi) / 2
      match t[mid]? with
      | none => false
      | some (first, last) =>
        if n < first then search t n fuel lo mid
        else if last < n then search t n fuel (mid + 1) hi
        else true
    else false

/-- Is the character in one of the ranges? -/
def contains (t : RangeTable) (c : Char) : Bool :=
  t.search c.toNat (Nat.log2 t.size + 1) 0 t.size

end RangeTable

end CodeTidy.Text
