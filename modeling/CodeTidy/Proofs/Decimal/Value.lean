import Mathlib.Algebra.Order.Field.Power
import Mathlib.Algebra.Order.Field.Rat
import Mathlib.Tactic.Linarith
import Mathlib.Tactic.NormNum

/-!
# The values of floating-point numbers

A finite floating-point number has a value, a rational number that its sign, its mantissa and its
exponent give. `beq_iff_value?` says that a number equals a finite one if and only if it has the
same value, which holds because the parts of a number are told by its value.
-/

namespace CodeTidy.Decimal

open Float.Model (UnpackedFloat Format)
open Float.Model.UnpackedFloat (Sign)

/-- The value that the parts of a number give. -/
def partsValue? : UnpackedFloat → Option ℚ
  | .infinity _ => none
  | .notANumber => none
  | .zero _ => some 0
  | .finite sign m e _ => some (sign.apply m * 2 ^ e)

/-- The value of a floating-point number. Infinities have none, nor has what is no number. -/
def value? (x : Float) : Option ℚ := partsValue? x.toModel.unpack

/-! ## The parts are told by the value -/

/-- A mantissa and an exponent as they are taken from the bits of a number: the mantissa has at most
53 bits, and it has fewer only with the least exponent. -/
structure Canonical (m : ℕ) (e : ℤ) : Prop where
  lt_bound : m < 2 ^ 53
  least_le : -1074 ≤ e
  full : 2 ^ 52 ≤ m ∨ e = -1074

/-- With another exponent the value is another one. -/
theorem Canonical.value_ne {m m' : ℕ} {e e' : ℤ} (h : Canonical m e) (h' : Canonical m' e')
    (hlt : e < e') : (m : ℚ) * 2 ^ e ≠ m' * 2 ^ e' := by
  intro hvalue
  -- The second exponent is not the least one, so its mantissa is full, and the first mantissa would
  -- be at least twice as great.
  have hleast := h.least_le
  have hfull : 2 ^ 52 ≤ m' := h'.full.resolve_right (by omega)
  obtain ⟨k, hk⟩ : ∃ k : ℕ, e' = e + (k + 1 : ℕ) := ⟨(e' - e - 1).toNat, by omega⟩
  have hm : m = m' * 2 ^ (k + 1) := by
    rw [hk, zpow_add₀ (by decide), zpow_natCast, mul_comm ((2 : ℚ) ^ e), ← mul_assoc] at hvalue
    exact_mod_cast mul_right_cancel₀ (zpow_ne_zero e (by decide)) hvalue
  have hbound := h.lt_bound
  have hgreat : 2 ^ 52 * 1 ≤ m' * 2 ^ k := Nat.mul_le_mul hfull Nat.one_le_two_pow
  rw [hm, pow_succ, ← mul_assoc] at hbound
  omega

/-- A mantissa and an exponent are told by their value. -/
theorem Canonical.value_inj {m m' : ℕ} {e e' : ℤ} (h : Canonical m e) (h' : Canonical m' e') :
    (m : ℚ) * 2 ^ e = m' * 2 ^ e' ↔ e = e' ∧ m = m' := by
  constructor
  · intro hvalue
    obtain rfl : e = e' := by
      rcases lt_trichotomy e e' with hlt | heq | hgt
      · exact absurd hvalue (h.value_ne h' hlt)
      · exact heq
      · exact absurd hvalue.symm (h'.value_ne h hgt)
    refine ⟨rfl, ?_⟩
    exact_mod_cast mul_right_cancel₀ (zpow_ne_zero e (by decide)) hvalue
  · rintro ⟨rfl, rfl⟩
    rfl

/-- The mantissa and the exponent, if there are any, are as they are taken from bits. -/
def CanonicalParts : UnpackedFloat → Prop
  | .finite _ m e _ => Canonical m e
  | _ => True

/-- A leading one in front of 52 bits. -/
theorem toNat_one_append (b : BitVec 52) : (1#1 ++ b).toNat = 2 ^ 52 + b.toNat := by
  rw [BitVec.toNat_append, ← Nat.shiftLeft_add_eq_or_of_lt b.isLt, Nat.shiftLeft_eq]
  rfl

/-- The parts of a floating-point number are as they are taken from bits. -/
theorem canonicalParts_unpack (x : Float) : CanonicalParts x.toModel.unpack := by
  unfold Float.Model.unpack UnpackedFloat.unpack
  dsimp only
  generalize @UnpackedFloat.unpackExponent .binary64 x.toModel.toBits.toBitVec = exponent
  refine iteInduction (fun _ => iteInduction (fun _ => trivial) fun _ => trivial) fun _ =>
    iteInduction (fun hleast => ?_) fun hleast => ?_
  -- with the least exponent the mantissa is what the bits give, else a one stands in front of them
  · by_cases hzero : @UnpackedFloat.unpackMantissa .binary64 x.toModel.toBits.toBitVec = 0#52
    · rw [dif_pos hzero]
      trivial
    · rw [dif_neg hzero, hleast]
      exact ⟨Nat.lt_trans (BitVec.isLt _) (by decide), by decide, .inr (by decide)⟩
  · have hne : exponent.toNat ≠ 0 := fun h => hleast (BitVec.eq_of_toNat_eq h)
    have hbias : (exponent.toNat : ℤ) - (Format.binary64.exponentBias + 52) =
      exponent.toNat - 1075 := rfl
    refine ⟨?_, ?_, .inl ?_⟩
    · exact BitVec.isLt _
    · show -1074 ≤ (exponent.toNat : ℤ) - (Format.binary64.exponentBias + 52)
      rw [hbias]
      omega
    · exact (Nat.le_add_right _ _).trans (toNat_one_append _).ge

/-! ## Equality -/

/-- Exponents and mantissas compare as equal if they give the same value. -/
theorem compare_eq_iff_value_eq {m m' : ℕ} {e e' : ℤ} (h : Canonical m e) (h' : Canonical m' e') :
    (compare e e').then (compare m m') = .eq ↔ (m : ℚ) * 2 ^ e = m' * 2 ^ e' := by
  rw [h.value_inj h', Ordering.then_eq_eq, compare_eq_iff_eq, compare_eq_iff_eq]

/-- A mantissa that is not zero gives a value above zero. -/
theorem magnitude_pos {m : ℕ} (hm : 0 < m) (e : ℤ) : (0 : ℚ) < m * 2 ^ e :=
  mul_pos (Nat.cast_pos.mpr hm) (zpow_pos (by decide) e)

/-- With a sign it is not zero. -/
theorem signed_ne_zero {m : ℕ} (hm : 0 < m) (e : ℤ) (sign : Sign) :
    (sign.apply m : ℚ) * 2 ^ e ≠ 0 := by
  have hpos := magnitude_pos hm e
  cases sign with
  | positive => simpa [Sign.apply] using hpos.ne'
  | negative => simpa [Sign.apply] using hpos.ne'

/-- Values are the same if their signs and their magnitudes are. -/
theorem signed_inj {m m' : ℕ} (hm : 0 < m) (hm' : 0 < m') {e e' : ℤ} {sign sign' : Sign} :
    (sign.apply m : ℚ) * 2 ^ e = sign'.apply m' * 2 ^ e' ↔
      sign = sign' ∧ (m : ℚ) * 2 ^ e = m' * 2 ^ e' := by
  have hpos := magnitude_pos hm e
  have hpos' := magnitude_pos hm' e'
  cases sign <;> cases sign' <;> simp only [Sign.apply, Int.cast_neg, Int.cast_natCast, neg_mul,
    neg_inj, true_and, reduceCtorEq, false_and, iff_false]
  · linarith
  · linarith

/-- Finite numbers compare as equal if their signs are the same and their parts do. -/
theorem compare_finite_iff {m m' : ℕ} {hm : 0 < m} {hm' : 0 < m'} {e e' : ℤ} {sign sign' : Sign} :
    (UnpackedFloat.finite sign m e hm).compare (.finite sign' m' e' hm') = some .eq ↔
      sign = sign' ∧ (compare e e').then (compare m m') = .eq := by
  cases sign with
  | positive =>
    cases sign' with
    | positive => exact Option.some_inj.trans (and_iff_right rfl).symm
    | negative => exact iff_of_false nofun nofun
  | negative =>
    cases sign' with
    | positive => exact iff_of_false nofun nofun
    -- below zero the order of the parts is turned round, which keeps equality
    | negative => exact Option.some_inj.trans (Ordering.swap_eq_eq.trans (and_iff_right rfl).symm)

/-- A number compares as equal to one that has a value if it has the same value. -/
theorem compare_parts_iff {a b : UnpackedFloat} (ha : CanonicalParts a) (hb : CanonicalParts b)
    {q : ℚ} (hq : partsValue? b = some q) :
    a.compare b = some .eq ↔ partsValue? a = some q := by
  rw [← hq]
  cases b with
  | infinity s => cases hq
  | notANumber => cases hq
  | zero s =>
    cases a with
    | infinity t => cases t <;> exact iff_of_false nofun nofun
    | notANumber => exact iff_of_false nofun nofun
    | zero t => exact iff_of_true rfl rfl
    | finite t m e hm =>
      refine iff_of_false (by cases t <;> nofun) fun h => ?_
      exact signed_ne_zero hm e t (Option.some.inj h)
  | finite s m' e' hm' =>
    cases a with
    | infinity t => cases t <;> exact iff_of_false nofun nofun
    | notANumber => exact iff_of_false nofun nofun
    | zero t =>
      refine iff_of_false (by cases s <;> nofun) fun h => ?_
      exact signed_ne_zero hm' e' s (Option.some.inj h).symm
    | finite t m e hm =>
      rw [compare_finite_iff, compare_eq_iff_value_eq ha hb, ← signed_inj hm hm']
      exact Option.some_inj.symm

/-- A floating-point number equals one that has a value if it has the same value. -/
theorem beq_iff_value? {x y : Float} {q : ℚ} (hy : value? y = some q) :
    (x == y) = true ↔ value? x = some q := by
  show (x.toModel.unpack.compare y.toModel.unpack == some .eq) = true ↔ _
  rw [beq_iff_eq]
  exact compare_parts_iff (canonicalParts_unpack x) (canonicalParts_unpack y) hy

/-! ## Small natural numbers -/

/-- Are these the parts of a natural number? -/
def isWhole (n : ℕ) : UnpackedFloat → Bool
  | .zero _ => n == 0
  | .finite .positive m e _ => decide (e ≤ 0) && m == n * 2 ^ (-e).toNat
  | _ => false

/-- The parts of a natural number give it as their value. -/
theorem partsValue?_of_isWhole {n : ℕ} {a : UnpackedFloat} (h : isWhole n a = true) :
    partsValue? a = some (n : ℚ) := by
  cases a with
  | infinity sign => cases h
  | notANumber => cases h
  | zero sign =>
    obtain rfl : n = 0 := beq_iff_eq.mp h
    rfl
  | finite sign m e hm =>
    cases sign with
    | negative => cases h
    | positive =>
      obtain ⟨he, hmantissa⟩ := Bool.and_eq_true_iff.mp h
      rw [decide_eq_true_eq] at he
      obtain ⟨k, rfl⟩ : ∃ k : ℕ, e = -k := ⟨(-e).toNat, by omega⟩
      rw [neg_neg, Int.toNat_natCast, beq_iff_eq] at hmantissa
      subst hmantissa
      show some (((n * 2 ^ k : ℕ) : ℤ) * (2 : ℚ) ^ (-(k : ℤ))) = some (n : ℚ)
      rw [zpow_neg, zpow_natCast]
      push_cast
      rw [mul_inv_cancel_right₀ (pow_ne_zero k (by decide))]

/-- Each natural number of one digit is a floating-point number. -/
theorem value?_ofNat {n : ℕ} (h : n < 10) : value? (Float.ofNat n) = some n := by
  have hwhole : ∀ n < 10, isWhole n (Float.ofNat n).toModel.unpack = true := by decide +kernel
  exact partsValue?_of_isWhole (hwhole n h)

end CodeTidy.Decimal
