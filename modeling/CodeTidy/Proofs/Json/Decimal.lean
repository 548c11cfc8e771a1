import CodeTidy.Json.Printer
import CodeTidy.Proofs.Json.Literal
import CodeTidy.Proofs.Settings.Text
import Mathlib.Algebra.Order.Ring.Rat
import Mathlib.Data.List.Basic
import Mathlib.Tactic.IntervalCases
import Mathlib.Tactic.Ring

/-!
# Numbers are written as literals

A number that has been read is written as a literal, `Number.literal`. An integer is written as it
is, and a floating-point number as its shortest decimal, so that `Number.decimal` is the value of
the literal.
-/

namespace CodeTidy

namespace Decimal

/-! ## Digits -/

/-- Only zero is written with a zero in front. -/
theorem natDigits_zero_head {n : ℕ} (h : (natDigits n).head? = some '0') : n = 0 := by
  unfold natDigits at h
  induction n using Nat.strong_induction_on with
  | _ n ih =>
    rcases Nat.lt_or_ge n 10 with hlt | hge
    · rw [Nat.toDigits_of_lt_base hlt] at h
      interval_cases n
      · rfl
      all_goals exact absurd h (by decide)
    · rw [Nat.toDigits_of_base_le (by decide) hge, List.head?_append_of_ne_nil _ Nat.toDigits_ne_nil]
        at h
      have hzero := ih (n / 10) (by omega) h
      omega

/-- The digits of a number are at least one. -/
theorem natDigits_ne_nil {n : ℕ} : natDigits n ≠ [] := Nat.toDigits_ne_nil

/-- The digits of a number denote it. -/
theorem ofDigitChars_natDigits (n : ℕ) : Nat.ofDigitChars 10 (natDigits n) 0 = n :=
  Nat.ofDigitChars_ten_toDigits

/-- Zeros behind digits multiply by a power of ten. -/
theorem ofDigitChars_zeros (n k : ℕ) :
    Nat.ofDigitChars 10 (List.replicate k '0') n = n * 10 ^ k := by
  induction k generalizing n with
  | zero => simp [Nat.ofDigitChars]
  | succ k ih =>
    rw [List.replicate_succ, Nat.ofDigitChars_cons, ih]
    show (10 * n + 0) * 10 ^ k = n * 10 ^ (k + 1)
    ring

/-- Zeros are digits. -/
theorem isDigit_zeros (k : ℕ) : ∀ c ∈ List.replicate k '0', c.isDigit = true := by
  intro c hc
  rw [List.eq_of_mem_replicate hc]
  decide

/-! ## The shortest decimal is zero only for zero -/

/-- Zero has no power of ten. -/
def Scaled.Proper (d : Scaled) : Prop := d.significand = 0 → d.exponent = 0

/-- Powers of ten are positive. -/
theorem powerOfTen_pos (e : ℤ) : 0 < powerOfTen e := Nat.pow_pos (by decide)

/-- Zero does not read back as a number that is not zero. -/
theorem significand_of_readsBack {x : Binary} {d : Scaled} (hx : x.mantissa ≠ 0)
    (h : x.readsBack d = true) : d.significand ≠ 0 := by
  intro hd
  -- Zero lies below the interval of such a number.
  have hbelow : ∀ low, 0 < low →
      compareScaled d.significand d.exponent low (x.exponent - 2) = .lt := by
    intro low hlow
    unfold compareScaled
    rw [hd, Nat.zero_mul, Nat.zero_shiftLeft, Nat.compare_eq_lt, Nat.shiftLeft_eq]
    exact Nat.mul_pos (Nat.mul_pos hlow (powerOfTen_pos _)) (Nat.two_pow_pos _)
  unfold Binary.readsBack at h
  dsimp only at h
  rw [hbelow _ (by split_ifs <;> omega)] at h
  simp at h

/-- A decimal on a grid that reads back is not zero. -/
theorem significand_of_onGrid {x : Binary} {tie : Tie} {grid : ℤ} {d : Scaled}
    (hx : x.mantissa ≠ 0) (h : x.onGrid tie grid = some d) : d.significand ≠ 0 := by
  have hreads : x.readsBack d = true := by
    unfold Binary.onGrid at h
    dsimp only at h
    split at h
    · exact absurd h nofun
    · obtain rfl := Option.some.inj h
      assumption
    · obtain rfl := Option.some.inj h
      assumption
    · split at h
      · obtain rfl := Option.some.inj h
        assumption
      · obtain rfl := Option.some.inj h
        assumption
      · obtain rfl := Option.some.inj h
        assumption
      · split_ifs at h
        · obtain rfl := Option.some.inj h
          assumption
        · obtain rfl := Option.some.inj h
          assumption
  exact significand_of_readsBack hx hreads

/-- Dropping trailing zeros does not lead to zero. -/
theorem significand_strip {d : Scaled} (h : d.significand ≠ 0) (fuel : ℕ) :
    (Scaled.strip fuel d).significand ≠ 0 := by
  induction fuel generalizing d with
  | zero => exact h
  | succ fuel ih =>
    unfold Scaled.strip
    split_ifs with hten
    · rw [Bool.and_eq_true, beq_iff_eq] at hten
      refine ih ?_
      show d.significand / 10 ≠ 0
      omega
    · exact h

/-- The shortest decimal of a number has no power of ten if it is zero. -/
theorem shortest_proper (x : Binary) (tie : Tie) : (x.shortest tie).Proper := by
  unfold Binary.shortest
  split_ifs with hzero
  · exact fun _ => rfl
  · rw [beq_iff_eq] at hzero
    dsimp only
    intro hd
    split at hd
    · rename_i d hfound
      obtain ⟨n, -, hgrid⟩ := List.exists_of_findSome?_eq_some hfound
      exact absurd hd (significand_strip (significand_of_onGrid hzero hgrid) 20)
    · have hpos : 0 < (x.mantissa * Nat.pow 5 (-x.exponent).toNat) <<< x.exponent.toNat := by
        rw [Nat.shiftLeft_eq]
        exact Nat.mul_pos (Nat.mul_pos (Nat.pos_of_ne_zero hzero) (Nat.pow_pos (by decide)))
          (Nat.two_pow_pos _)
      exact absurd hd (Nat.pos_iff_ne_zero.mp hpos)

end Decimal

namespace Json

open Decimal

/-! ## Literals -/

/-- The head of the digits of a number, where there is no other behind a zero. -/
theorem natDigits_of_zero_head {n : ℕ} (h : (natDigits n).head? = some '0') :
    natDigits n = ['0'] := by
  rw [natDigits_zero_head h]
  rfl

/-- The value of a literal is told by its digits and its power of ten. -/
theorem Literal.value_eq {l : Literal} {m : ℕ} {e : ℤ}
    (hm : Nat.ofDigitChars 10 (l.whole ++ l.fraction) 0 = m)
    (he : (l.exponent.map Exponent.value).getD 0 - l.fraction.length = e) :
    l.value = signed l.negative (m * 10 ^ e) := by
  unfold Literal.value
  rw [hm, he]

/-- Digits with zeros behind them and a fraction of zero make up a literal. -/
theorem exists_whole (negative : Bool) {m k : ℕ} (hk : m = 0 → k = 0) :
    ∃ l : Literal, l.negative = negative ∧
      l.unsigned = natDigits m ++ List.replicate k '0' ++ ['.', '0'] ∧
      l.value = signed negative (m * 10 ^ (k : ℤ)) := by
  have hne : natDigits m ++ List.replicate k '0' ≠ [] :=
    List.append_ne_nil_of_left_ne_nil natDigits_ne_nil _
  have hwhole : ∀ c ∈ natDigits m ++ List.replicate k '0', c.isDigit = true :=
    List.forall_mem_append.mpr ⟨natDigits_isDigit, isDigit_zeros k⟩
  have hzero : (natDigits m ++ List.replicate k '0').head? = some '0' →
      natDigits m ++ List.replicate k '0' = ['0'] := by
    intro h
    rw [List.head?_append_of_ne_nil _ natDigits_ne_nil] at h
    rw [hk (natDigits_zero_head h), List.replicate_zero, List.append_nil, natDigits_of_zero_head h]
  let l : Literal := ⟨negative, _, ['0'], none, hne, hwhole, hzero, by simp⟩
  have hvalue : l.value = signed negative ((m * 10 ^ (k + 1) : ℕ) * 10 ^ (-1 : ℤ)) := by
    refine Literal.value_eq (l := l) ?_ rfl
    show Nat.ofDigitChars 10 (natDigits m ++ List.replicate k '0' ++ ['0']) 0 = _
    rw [List.append_assoc, ← List.replicate_succ', Nat.ofDigitChars_append,
      ofDigitChars_natDigits, ofDigitChars_zeros]
  refine ⟨l, rfl, rfl, ?_⟩
  rw [hvalue]
  congr 1
  push_cast
  rw [pow_succ, zpow_natCast, zpow_neg_one, mul_assoc, mul_assoc, mul_inv_cancel₀ (by decide),
    mul_one]

/-- Digits with the point in front of the last `k` of them make up a literal. -/
theorem exists_fraction (negative : Bool) {m k : ℕ} (hpos : 0 < k)
    (hk : k < (natDigits m).length) :
    ∃ l : Literal, l.negative = negative ∧
      l.unsigned = (natDigits m).take ((natDigits m).length - k) ++
        '.' :: (natDigits m).drop ((natDigits m).length - k) ∧
      l.value = signed negative (m * 10 ^ (-(k : ℤ))) := by
  generalize hn : (natDigits m).length - k = n
  have hfraction : (natDigits m).drop n ≠ [] := by
    intro hnil
    have hlen := congrArg List.length hnil
    rw [List.length_drop, List.length_nil] at hlen
    omega
  have hwhole : (natDigits m).take n ≠ [] := by
    intro hnil
    have hlen := congrArg List.length hnil
    rw [List.length_take, List.length_nil] at hlen
    omega
  have hzero : ((natDigits m).take n).head? = some '0' → (natDigits m).take n = ['0'] := by
    intro h
    rw [List.head?_take, if_neg (by omega)] at h
    rw [natDigits_of_zero_head h, List.length_singleton] at hk
    omega
  let l : Literal := ⟨negative, (natDigits m).take n, (natDigits m).drop n, none, hwhole,
    fun c hc => natDigits_isDigit c (List.mem_of_mem_take hc), hzero,
    fun c hc => natDigits_isDigit c (List.mem_of_mem_drop hc)⟩
  refine ⟨l, rfl, ?_, Literal.value_eq (l := l) ?_ ?_⟩
  · obtain ⟨c, s, hs⟩ := List.exists_cons_of_ne_nil hfraction
    show (natDigits m).take n ++ (pointed ((natDigits m).drop n) ++ []) = _
    rw [hs, List.append_nil]
    rfl
  · show Nat.ofDigitChars 10 ((natDigits m).take n ++ (natDigits m).drop n) 0 = m
    rw [List.take_append_drop, ofDigitChars_natDigits]
  · show (0 : ℤ) - (((natDigits m).drop n).length : ℕ) = -(k : ℤ)
    rw [List.length_drop]
    omega

/-- Digits behind a point and `k` zeros make up a literal. -/
theorem exists_small (negative : Bool) (m k : ℕ) :
    ∃ l : Literal, l.negative = negative ∧
      l.unsigned = '0' :: '.' :: List.replicate k '0' ++ natDigits m ∧
      l.value = signed negative (m * 10 ^ (-((k + (natDigits m).length : ℕ) : ℤ))) := by
  have hdigits : ∀ c ∈ List.replicate k '0' ++ natDigits m, c.isDigit = true :=
    List.forall_mem_append.mpr ⟨isDigit_zeros k, natDigits_isDigit⟩
  have hne : List.replicate k '0' ++ natDigits m ≠ [] :=
    List.append_ne_nil_of_right_ne_nil _ natDigits_ne_nil
  let l : Literal := ⟨negative, ['0'], _, none, by simp, by simp, fun _ => rfl, hdigits⟩
  refine ⟨l, rfl, ?_, Literal.value_eq (l := l) ?_ ?_⟩
  · obtain ⟨c, s, hs⟩ := List.exists_cons_of_ne_nil hne
    show '0' :: (pointed (List.replicate k '0' ++ natDigits m) ++ []) = _
    rw [List.append_nil, List.cons_append, List.cons_append, hs]
    rfl
  · show Nat.ofDigitChars 10 (['0'] ++ (List.replicate k '0' ++ natDigits m)) 0 = m
    rw [Nat.ofDigitChars_append, Nat.ofDigitChars_append, ofDigitChars_zeros]
    show Nat.ofDigitChars 10 (natDigits m) (0 * 10 ^ k) = m
    rw [Nat.zero_mul, ofDigitChars_natDigits]
  · show (0 : ℤ) - ((List.replicate k '0' ++ natDigits m).length : ℕ) = _
    rw [List.length_append, List.length_replicate, zero_sub]

/-- A decimal that is written positionally is a literal of its value. -/
theorem exists_positional (negative : Bool) {d : Scaled} (hd : d.Proper) :
    ∃ l : Literal, l.negative = negative ∧ l.unsigned = d.positional ['.', '0'] ∧
      l.value = signed negative (d.significand * 10 ^ d.exponent) := by
  unfold Scaled.positional
  dsimp only
  split_ifs with hexponent hplaces
  · obtain ⟨k, hk⟩ := Int.eq_ofNat_of_zero_le hexponent
    rw [hk]
    exact exists_whole negative fun h => by have := hd h; omega
  · obtain ⟨k, hk⟩ : ∃ k : ℕ, d.exponent = -(k : ℤ) := ⟨(-d.exponent).toNat, by omega⟩
    rw [hk, neg_neg, Int.toNat_natCast] at hplaces ⊢
    exact exists_fraction negative (by omega) hplaces
  · obtain ⟨k, hk⟩ : ∃ k : ℕ, d.exponent = -(k : ℤ) := ⟨(-d.exponent).toNat, by omega⟩
    rw [hk, neg_neg, Int.toNat_natCast] at hplaces ⊢
    obtain ⟨n, rfl⟩ := Nat.exists_eq_add_of_le' (Nat.le_of_not_lt hplaces)
    rw [Nat.add_sub_cancel]
    exact exists_small negative d.significand n

/-- An integer is the value of the exponent that it is written as. -/
theorem exists_exponent (power : ℤ) : ∃ e : Exponent,
    e.text = 'e' :: (if power < 0 then ['-'] else ['+']) ++ natDigits power.natAbs ∧
      e.value = power := by
  rcases lt_or_ge power 0 with hneg | hpos
  · refine ⟨⟨'e', ['-'], natDigits power.natAbs, by simp, by simp, natDigits_ne_nil,
      natDigits_isDigit⟩, by rw [if_pos hneg]; rfl, ?_⟩
    unfold Exponent.value
    dsimp only
    rw [if_pos rfl, ofDigitChars_natDigits]
    omega
  · refine ⟨⟨'e', ['+'], natDigits power.natAbs, by simp, by simp, natDigits_ne_nil,
      natDigits_isDigit⟩, by rw [if_neg (by omega)]; rfl, ?_⟩
    unfold Exponent.value
    dsimp only
    rw [if_neg (by decide), ofDigitChars_natDigits]
    omega

/-- A decimal that is written with a power of ten is a literal of its value. -/
theorem exists_scientific (negative : Bool) (d : Scaled) :
    ∃ l : Literal, l.negative = negative ∧ l.unsigned = d.scientific ['+'] ∧
      l.value = signed negative (d.significand * 10 ^ d.exponent) := by
  have hall := natDigits_isDigit (n := d.significand)
  have hvalue := ofDigitChars_natDigits d.significand
  unfold Scaled.scientific
  dsimp only
  obtain ⟨e, htext, he⟩ := exists_exponent (d.exponent + (natDigits d.significand).length - 1)
  rw [List.append_assoc, ← htext]
  obtain ⟨a, rest, hdigits⟩ := List.exists_cons_of_ne_nil (natDigits_ne_nil (n := d.significand))
  rw [hdigits] at hall hvalue he ⊢
  have ha : ∀ c ∈ [a], c.isDigit = true := by
    intro c hc
    rw [List.mem_singleton.mp hc]
    exact hall a (List.mem_cons_self ..)
  let l : Literal := ⟨negative, [a], rest, some e, by simp, ha, fun h => by simpa using h,
    fun c hc => hall c (List.mem_cons_of_mem a hc)⟩
  refine ⟨l, rfl, ?_, Literal.value_eq (l := l) hvalue ?_⟩
  · show [a] ++ (pointed rest ++ e.text) = _
    cases rest with
    | nil => rfl
    | cons b rest => rfl
  · show e.value - (rest.length : ℕ) = d.exponent
    rw [he, List.length_cons]
    push_cast
    omega

/-! ## Numbers -/

/-- The value of the decimal as which a number is written: an integer itself, and the shortest
decimal of a floating-point number. -/
def Number.decimal : Number → ℚ
  | .int n => n
  | .real x =>
    let d := (Binary.ofFloat x).shortest .even
    signed (isNegative x) (d.significand * 10 ^ d.exponent)

/-- A literal with its sign. -/
theorem Literal.text_eq {l : Literal} {negative : Bool} (h : l.negative = negative) :
    l.text = if negative then '-' :: l.unsigned else l.unsigned := by
  rw [text, h]

/-- An integer is written as a literal without fraction and exponent. -/
def intLiteral (n : ℤ) : Literal where
  negative := decide (n < 0)
  whole := natDigits n.natAbs
  fraction := []
  exponent := none
  whole_ne_nil := natDigits_ne_nil
  whole_isDigit := natDigits_isDigit
  whole_of_zero := natDigits_of_zero_head
  fraction_isDigit := nofun

/-- The literal of an integer is its decimal form. -/
theorem intLiteral_text (n : ℤ) : (intLiteral n).text = intText n := by
  rw [Literal.text_eq rfl]
  show (if decide (n < 0) = true then '-' :: (natDigits n.natAbs ++ []) else natDigits n.natAbs ++ [])
    = intText n
  unfold intText
  rw [List.append_nil]
  simp only [decide_eq_true_eq]

/-- The literal of an integer has its value. -/
theorem intLiteral_value (n : ℤ) : (intLiteral n).value = n := by
  have hvalue : (intLiteral n).value = signed (decide (n < 0)) ((n.natAbs : ℕ) * 10 ^ (0 : ℤ)) := by
    refine Literal.value_eq ?_ rfl
    show Nat.ofDigitChars 10 (natDigits n.natAbs ++ []) 0 = n.natAbs
    rw [List.append_nil, ofDigitChars_natDigits]
  rw [hvalue, zpow_zero, mul_one]
  unfold signed
  split_ifs with hneg
  · have habs : ((n.natAbs : ℕ) : ℤ) = -n := by
      rw [decide_eq_true_eq] at hneg
      omega
    rw [← Int.cast_natCast, habs, Int.cast_neg, neg_neg]
  · have habs : ((n.natAbs : ℕ) : ℤ) = n := by
      rw [decide_eq_true_eq] at hneg
      omega
    rw [← Int.cast_natCast, habs]

/-- A number is written as a literal of its value. -/
theorem Number.exists_literal (n : Number) :
    ∃ l : Literal, l.text = n.text ∧ l.value = n.decimal := by
  cases n with
  | int n => exact ⟨intLiteral n, intLiteral_text n, intLiteral_value n⟩
  | real x =>
    let d := (Binary.ofFloat x).shortest .even
    let power : ℤ := d.exponent + (natDigits d.significand).length - 1
    let unsigned :=
      if -5 ≤ power && power ≤ 15 then d.positional ['.', '0'] else d.scientific ['+']
    obtain ⟨l, hsign, htext, hvalue⟩ : ∃ l : Literal, l.negative = isNegative x ∧
        l.unsigned = unsigned ∧ l.value = (Number.real x).decimal := by
      dsimp only [unsigned]
      split
      · exact exists_positional (isNegative x) (shortest_proper (Binary.ofFloat x) .even)
      · exact exists_scientific (isNegative x) d
    refine ⟨l, ?_, hvalue⟩
    show l.text = (String.ofList (if isNegative x then '-' :: unsigned else unsigned)).toList
    rw [Literal.text_eq hsign, htext, String.toList_ofList]

end Json

end CodeTidy
