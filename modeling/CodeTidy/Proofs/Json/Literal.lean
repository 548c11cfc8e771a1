import CodeTidy.Json.Reader
import Mathlib.Data.List.TakeWhile
import Mathlib.Data.Rat.Defs
import Mathlib.Tactic.SplitIfs

/-!
# Number literals

A number of a JSON text is a literal: a sign, digits, perhaps a fraction and perhaps an exponent.
`Literal.text_inj` says that its characters tell its parts. A literal has a value, which is a
rational number, and it is read as a number of 64 bits or as a floating-point number, which need
not have the same value.
-/

namespace CodeTidy.Json

/-- A text starts with no character that satisfies `p`. -/
def Stops (p : Char → Bool) (s : List Char) : Prop := ∀ c, s.head? = some c → p c = false

/-- Where characters that satisfy `p` end is told by what stands behind them. -/
theorem Stops.append_inj {p : Char → Bool} {s s' r r' : List Char} (hr : Stops p r)
    (hr' : Stops p r') (hs : ∀ c ∈ s, p c = true) (hs' : ∀ c ∈ s', p c = true)
    (h : s ++ r = s' ++ r') : s = s' ∧ r = r' := by
  have htake : ∀ {s r : List Char}, (∀ c ∈ s, p c = true) → Stops p r →
      (s ++ r).takeWhile p = s := by
    intro s r hs hr
    rw [List.takeWhile_append_of_pos hs]
    cases r with
    | nil => rw [List.takeWhile_nil, List.append_nil]
    | cons c r => rw [List.takeWhile_cons_of_neg (by simp [hr c rfl]), List.append_nil]
  have heq : s = s' := by
    rw [← htake hs hr, h, htake hs' hr']
  subst heq
  exact ⟨rfl, List.append_cancel_left h⟩

/-- The exponent of a number: its mark, its sign if it has one, and its digits. -/
@[ext]
structure Exponent where
  mark : Char
  sign : List Char
  digits : List Char
  mark_mem : mark ∈ ['e', 'E']
  sign_mem : sign ∈ [[], ['+'], ['-']]
  digits_ne_nil : digits ≠ []
  digits_isDigit : ∀ c ∈ digits, c.isDigit = true

/-- A number as it is written. The first digit is zero only if it is the only one in front of the
point, and a number without a point has no fraction. -/
@[ext]
structure Literal where
  negative : Bool
  whole : List Char
  fraction : List Char
  exponent : Option Exponent
  whole_ne_nil : whole ≠ []
  whole_isDigit : ∀ c ∈ whole, c.isDigit = true
  whole_of_zero : whole.head? = some '0' → whole = ['0']
  fraction_isDigit : ∀ c ∈ fraction, c.isDigit = true

/-! ## Texts -/

/-- The characters that literals consist of. -/
def isNumeric (c : Char) : Bool := c.isDigit || ['-', '+', '.', 'e', 'E'].contains c

/-- An exponent with its mark. -/
def Exponent.text (e : Exponent) : List Char := e.mark :: (e.sign ++ e.digits)

/-- The exponent, if there is one. -/
def exponentText : Option Exponent → List Char
  | none => []
  | some e => e.text

/-- A fraction with its point. -/
def pointed : List Char → List Char
  | [] => []
  | d :: ds => '.' :: d :: ds

namespace Literal

/-- The literal without its sign. -/
def unsigned (l : Literal) : List Char :=
  l.whole ++ (pointed l.fraction ++ exponentText l.exponent)

/-- The literal. -/
def text (l : Literal) : List Char := if l.negative then '-' :: l.unsigned else l.unsigned

end Literal

/-- An exponent starts with its mark. -/
theorem stops_exponentText {p : Char → Bool} (he : p 'e' = false) (hE : p 'E' = false)
    (e : Option Exponent) : Stops p (exponentText e) := by
  cases e with
  | none => exact nofun
  | some e =>
    intro c hc
    have hmark := e.mark_mem
    obtain rfl : e.mark = c := Option.some.inj hc
    simp only [List.mem_cons, List.not_mem_nil, or_false] at hmark
    rcases hmark with h | h
    · rwa [h]
    · rwa [h]

/-- The characters of an exponent tell its parts. -/
theorem Exponent.text_inj {e e' : Exponent} (h : e.text = e'.text) : e = e' := by
  obtain ⟨hmark, hrest⟩ := List.cons.inj h
  let isSign : Char → Bool := fun c => c == '+' || c == '-'
  have hsign : ∀ e : Exponent, ∀ c ∈ e.sign, isSign c = true := by
    intro e c hc
    have hmem := e.sign_mem
    simp only [List.mem_cons, List.not_mem_nil, or_false] at hmem
    rcases hmem with hnil | hplus | hminus
    · simp [hnil] at hc
    · simp [isSign, show c = '+' by simpa [hplus] using hc]
    · simp [isSign, show c = '-' by simpa [hminus] using hc]
  have hdigits : ∀ e : Exponent, Stops isSign e.digits := by
    intro e c hc
    have hdigit := e.digits_isDigit c (List.mem_of_mem_head? hc)
    by_contra hs
    rw [Bool.not_eq_false, Bool.or_eq_true, beq_iff_eq, beq_iff_eq] at hs
    rcases hs with rfl | rfl
    · exact absurd hdigit (by decide)
    · exact absurd hdigit (by decide)
  obtain ⟨hs, hd⟩ := (hdigits e).append_inj (hdigits e') (hsign e) (hsign e') hrest
  exact Exponent.ext hmark hs hd

namespace Literal

/-- Behind the digits of the whole part stands no digit. -/
theorem stops_fraction (l : Literal) :
    Stops Char.isDigit (pointed l.fraction ++ exponentText l.exponent) := by
  cases l.fraction with
  | nil => exact stops_exponentText (by decide) (by decide) l.exponent
  | cons d ds =>
    intro c hc
    obtain rfl : '.' = c := Option.some.inj hc
    decide

/-- The characters of an exponent tell it. -/
theorem exponentText_inj {e e' : Option Exponent} (h : exponentText e = exponentText e') :
    e = e' := by
  cases e with
  | none =>
    cases e' with
    | none => rfl
    | some e' => exact absurd h nofun
  | some e =>
    cases e' with
    | none => exact absurd h nofun
    | some e' => rw [Exponent.text_inj h]

/-- The characters behind the whole part tell the fraction and the exponent. -/
theorem fraction_inj {f f' : List Char} {e e' : Option Exponent}
    (hf : ∀ c ∈ f, c.isDigit = true) (hf' : ∀ c ∈ f', c.isDigit = true)
    (h : pointed f ++ exponentText e = pointed f' ++ exponentText e') : f = f' ∧ e = e' := by
  -- No exponent starts with a point.
  have hpoint : ∀ (e : Option Exponent) (s : List Char), exponentText e ≠ '.' :: s := by
    intro e s heq
    have hstops := stops_exponentText (p := (· == '.')) (by decide) (by decide) e '.'
    rw [heq] at hstops
    exact absurd (hstops rfl) (by decide)
  cases f with
  | nil =>
    cases f' with
    | nil => exact ⟨rfl, exponentText_inj h⟩
    | cons d' ds' => exact absurd h (hpoint e _)
  | cons d ds =>
    cases f' with
    | nil => exact absurd h.symm (hpoint e' _)
    | cons d' ds' =>
      have hstops : ∀ e, Stops Char.isDigit (exponentText e) :=
        stops_exponentText (by decide) (by decide)
      obtain ⟨hdigits, he⟩ :=
        (hstops e).append_inj (hstops e') hf hf' (List.cons.inj h).2
      exact ⟨hdigits, exponentText_inj he⟩

/-- The whole part starts with a digit. -/
theorem exists_digit (l : Literal) : ∃ d s, d.isDigit = true ∧ l.unsigned = d :: s := by
  have hne := l.whole_ne_nil
  have hdigit := l.whole_isDigit
  unfold unsigned
  generalize l.whole = w at hne hdigit ⊢
  cases w with
  | nil => exact absurd rfl hne
  | cons d ds => exact ⟨d, _, hdigit d (List.mem_cons_self ..), List.cons_append ..⟩

/-- The characters of a literal tell its parts. -/
theorem text_inj {l l' : Literal} (h : l.text = l'.text) : l = l' := by
  -- A sign is no digit.
  have hsign : ∀ (l l' : Literal), '-' :: l.unsigned ≠ l'.unsigned := by
    intro l l' heq
    obtain ⟨d, s, hd, hs⟩ := l'.exists_digit
    rw [hs] at heq
    obtain rfl := (List.cons.inj heq).1
    exact absurd hd (by decide)
  have hboth : l.negative = l'.negative ∧ l.unsigned = l'.unsigned := by
    unfold text at h
    split_ifs at h with hn hn' hn'
    · exact ⟨hn.trans hn'.symm, (List.cons.inj h).2⟩
    · exact absurd h (hsign l l')
    · exact absurd h.symm (hsign l' l)
    · rw [Bool.not_eq_true] at hn hn'
      exact ⟨hn.trans hn'.symm, h⟩
  obtain ⟨hneg, hunsigned⟩ := hboth
  obtain ⟨hwhole, hrest⟩ := l.stops_fraction.append_inj l'.stops_fraction l.whole_isDigit
    l'.whole_isDigit hunsigned
  obtain ⟨hfraction, hexponent⟩ := fraction_inj l.fraction_isDigit l'.fraction_isDigit hrest
  exact Literal.ext hneg hwhole hfraction hexponent

/-- A literal consists of such characters. -/
theorem text_isNumeric (l : Literal) : ∀ c ∈ l.text, isNumeric c = true := by
  have hdigit : ∀ c : Char, c.isDigit = true → isNumeric c = true := by
    intro c hc
    rw [isNumeric, hc, Bool.true_or]
  have hfraction : ∀ c ∈ pointed l.fraction, isNumeric c = true := by
    have hall := l.fraction_isDigit
    generalize l.fraction = f at hall ⊢
    cases f with
    | nil => exact nofun
    | cons d ds =>
      intro c hc
      rcases List.mem_cons.mp hc with rfl | hmem
      · decide
      · exact hdigit c (hall c hmem)
  have hexponent : ∀ c ∈ exponentText l.exponent, isNumeric c = true := by
    cases l.exponent with
    | none => exact nofun
    | some e =>
      intro c hc
      rcases List.mem_cons.mp hc with rfl | hmem
      · have hmark := e.mark_mem
        simp only [List.mem_cons, List.not_mem_nil, or_false] at hmark
        rcases hmark with h | h
        · rw [h]; decide
        · rw [h]; decide
      rcases List.mem_append.mp hmem with hs | hd
      · have hsign := e.sign_mem
        simp only [List.mem_cons, List.not_mem_nil, or_false] at hsign
        rcases hsign with h | h | h
        · simp [h] at hs
        · rw [show c = '+' by simpa [h] using hs]; decide
        · rw [show c = '-' by simpa [h] using hs]; decide
      · exact hdigit c (e.digits_isDigit c hd)
  have hunsigned : ∀ c ∈ l.unsigned, isNumeric c = true := by
    intro c hc
    rcases List.mem_append.mp hc with hw | hrest
    · exact hdigit c (l.whole_isDigit c hw)
    rcases List.mem_append.mp hrest with hf | he
    · exact hfraction c hf
    · exact hexponent c he
  unfold text
  split_ifs
  · intro c hc
    rcases List.mem_cons.mp hc with rfl | hmem
    · decide
    · exact hunsigned c hmem
  · exact hunsigned

end Literal

/-! ## Values -/

/-- The power of ten that an exponent stands for. -/
def Exponent.value (e : Exponent) : ℤ :=
  let n : ℤ := Nat.ofDigitChars 10 e.digits 0
  if e.sign = ['-'] then -n else n

/-- The number with a sign. -/
def signed (negative : Bool) (x : ℚ) : ℚ := if negative then -x else x

/-- The number that a literal stands for: its digits as an integer, with a sign, times a power of
ten. -/
def Literal.value (l : Literal) : ℚ :=
  signed l.negative ((Nat.ofDigitChars 10 (l.whole ++ l.fraction) 0 : ℕ)
    * 10 ^ ((l.exponent.map Exponent.value).getD 0 - l.fraction.length))

/-! ## What is read -/

/-- The number `significand * 10 ^ exponent` as it is computed where it does not overflow. -/
def scaled (significand : ℕ) (exponent : ℤ) : Float :=
  let f := significand.toUInt64.toFloat
  if 0 ≤ exponent then if exponent ≤ 308 then f * powerOfTen exponent.toNat else f
  else divideByPower f (-exponent).toNat

/-- The power of ten as it is computed from an exponent, unless the exponent is too large. -/
def Exponent.shift? (e : Exponent) (start : ℤ) : Option ℤ :=
  let (n, unread) := exponentPart.exponentOf 0 e.digits
  match unread with
  | some _ => none
  | none =>
    let shifted : ℤ := if e.sign = ['-'] then start - n else start + n
    some (max (-(maxExponent : ℤ) - 1) (min maxExponent shifted))

/-- The number as it is computed from its significant digits and the exponent written, if any. -/
def powered (significand : ℕ) (start : ℤ) : Option Exponent → Float
  | none => scaled significand start
  | some e => ((e.shift? start).map (scaled significand)).getD 0.0

namespace Literal

/-- The floating-point number that is read, without its sign. -/
def magnitude (l : Literal) : Float :=
  let (n, _, left) := addDigits 0 l.whole
  let (m, used, _) := addDigits n l.fraction
  powered m (left - used) l.exponent

/-- The number as which a literal is read. It is an integer if the literal has neither fraction nor
exponent and 64 bits hold it. -/
def number (l : Literal) : Number :=
  let (n, _, left) := addDigits 0 l.whole
  if l.fraction.isEmpty && l.exponent.isNone && left == 0 then
    if !l.negative then .int n
    else if n == 0 || 0x8000000000000000 < n then .real (-n.toUInt64.toFloat)
    else .int (-n)
  else .real (if l.negative then -l.magnitude else l.magnitude)

/-- A literal that is no integer of 64 bits is read as a floating-point number. -/
theorem number_real {l : Literal}
    (h : l.fraction ≠ [] ∨ l.exponent ≠ none ∨ (addDigits 0 l.whole).2.2 ≠ 0) :
    l.number = .real (if l.negative then -l.magnitude else l.magnitude) := by
  unfold number
  dsimp only
  rw [if_neg]
  intro hinteger
  simp only [Bool.and_eq_true, List.isEmpty_iff, Option.isNone_iff_eq_none, beq_iff_eq] at hinteger
  rcases h with hf | he | hleft
  · exact hf hinteger.1.1
  · exact he hinteger.1.2
  · exact hleft hinteger.2

/-- A literal that is an integer of 64 bits is read as one, unless the sign does not fit. -/
theorem number_integer {l : Literal} (hf : l.fraction = []) (he : l.exponent = none)
    (hleft : (addDigits 0 l.whole).2.2 = 0) :
    l.number =
      if !l.negative then .int (addDigits 0 l.whole).1
      else if (addDigits 0 l.whole).1 == 0 || 0x8000000000000000 < (addDigits 0 l.whole).1 then
        .real (-(addDigits 0 l.whole).1.toUInt64.toFloat)
      else .int (-(addDigits 0 l.whole).1) := by
  unfold number
  dsimp only
  rw [if_pos]
  simp [hf, he, hleft]

end Literal

end CodeTidy.Json
