import CodeTidy.Proofs.Decimal.Value
import CodeTidy.Proofs.Text.Ascii
import CodeTidy.Proofs.Text.Blank
import CodeTidy.Proofs.Text.Letter
import CodeTidy.Settings.Widths
import Mathlib.Data.Nat.Notation

/-!
# What indentation settings say

The setting for the indentation is a number, a text of digits or a word. `IndentToken.Written` lists
the JSON values that write a token, and `IndentToken.ofDatum_exact` says that these are read as the
token and that all others are errors: no number is cut down to a width.
-/

namespace CodeTidy

/-- A text that writes a natural number: digits, behind a plus or not. -/
inductive Numeral : List Char → ℕ → Prop
  | digits {ds : List Char} (hne : ds ≠ []) (hds : ∀ c ∈ ds, c.isDigit = true) :
    Numeral ds (Nat.ofDigitChars 10 ds 0)
  | plus {ds : List Char} (hne : ds ≠ []) (hds : ∀ c ∈ ds, c.isDigit = true) :
    Numeral ('+' :: ds) (Nat.ofDigitChars 10 ds 0)

namespace Numeral

/-- The text without a plus in front. -/
def unsigned : List Char → List Char
  | '+' :: r => r
  | r => r

/-- A text that does not start with a plus is as it is. -/
theorem unsigned_eq_self {s : List Char} (h : s.head? ≠ some '+') : unsigned s = s := by
  unfold unsigned
  split
  · exact absurd rfl h
  · rfl

/-- Digits do not start with a plus. -/
theorem unsigned_digits {ds : List Char} (hds : ∀ c ∈ ds, c.isDigit = true) : unsigned ds = ds :=
  unsigned_eq_self fun h => absurd (hds '+' (List.mem_of_mem_head? h)) (by decide)

/-- A text writes a number if digits are left without a plus in front. -/
theorem iff_unsigned {s : List Char} {n : ℕ} :
    Numeral s n ↔ unsigned s ≠ [] ∧ (∀ c ∈ unsigned s, c.isDigit = true) ∧
      Nat.ofDigitChars 10 (unsigned s) 0 = n := by
  constructor
  · intro h
    cases h with
    | digits hne hds =>
      rw [unsigned_digits hds]
      exact ⟨hne, hds, rfl⟩
    | plus hne hds => exact ⟨hne, hds, rfl⟩
  · rintro ⟨hne, hds, rfl⟩
    by_cases hplus : s.head? = some '+'
    · obtain ⟨r, rfl⟩ := List.head?_eq_some_iff.mp hplus
      exact .plus hne hds
    · rw [unsigned_eq_self hplus] at hne hds ⊢
      exact .digits hne hds

/-- A text writes one number at most. -/
theorem unique {s : List Char} {m n : ℕ} (hm : Numeral s m) (hn : Numeral s n) : m = n := by
  rw [← (iff_unsigned.mp hm).2.2, (iff_unsigned.mp hn).2.2]

/-- A number has characters. -/
theorem ne_nil {s : List Char} {n : ℕ} (h : Numeral s n) : s ≠ [] := by
  cases h with
  | digits hne _ => exact hne
  | plus _ _ => exact List.cons_ne_nil _ _

/-- The characters of a number are digits and the plus. -/
theorem mem {s : List Char} {n : ℕ} (h : Numeral s n) :
    ∀ c ∈ s, c.isDigit = true ∨ c = '+' := by
  cases h with
  | digits _ hds => exact fun c hc => .inl (hds c hc)
  | plus _ hds =>
    intro c hc
    rcases List.mem_cons.mp hc with rfl | hc
    · exact .inr rfl
    · exact .inl (hds c hc)

/-- There is no white space in a number, so there is none at its ends. -/
theorem trimmed {s : List Char} {n : ℕ} (h : Numeral s n) : Text.Trimmed s := by
  apply Text.trimmed_of_forall
  intro c hc
  rw [Bool.eq_false_iff]
  intro hblank
  obtain ⟨hdigit, hplus⟩ := Text.forall_blank (P := fun c => ¬c.isDigit = true ∧ c ≠ '+')
    (by decide +kernel) hblank
  exact (h.mem c hc).elim hdigit hplus

end Numeral

namespace IndentToken

/-- Behind the plus the number is the one that the digits denote. -/
theorem digitsValue?_eq (s : List Char) : digitsValue? s =
    if (Numeral.unsigned s).isEmpty || !(Numeral.unsigned s).all Char.isDigit then none
    else if Nat.ofDigitChars 10 (Numeral.unsigned s) 0 < 2 ^ 64 then
      some (Nat.ofDigitChars 10 (Numeral.unsigned s) 0)
    else none := by
  have hvalue : Nat.ofDigitChars 10 (Numeral.unsigned s) 0 =
      (Numeral.unsigned s).foldl (fun n d => n * 10 + (d.toNat - '0'.toNat)) 0 := by
    simp only [Nat.ofDigitChars_eq_foldl, Nat.mul_comm 10]
  rw [hvalue]
  rfl

/-- Digits are read as the number that they denote, if it has 64 bits at most. -/
theorem digitsValue?_eq_some_iff {s : List Char} {n : ℕ} :
    digitsValue? s = some n ↔ Numeral s n ∧ n < 2 ^ 64 := by
  rw [digitsValue?_eq, Numeral.iff_unsigned]
  generalize Numeral.unsigned s = ds
  have hguard : (ds.isEmpty || !ds.all Char.isDigit) = true ↔
      ¬(ds ≠ [] ∧ ∀ c ∈ ds, c.isDigit = true) := by
    rw [Bool.or_eq_true, List.isEmpty_iff, Bool.not_eq_true', Bool.eq_false_iff, ne_eq,
      List.all_eq_true, not_and_or, not_not]
  split_ifs with hbad hlt
  · exact iff_of_false nofun fun h => hguard.mp hbad ⟨h.1.1, h.1.2.1⟩
  · obtain ⟨hne, hds⟩ := not_not.mp (mt hguard.mpr hbad)
    rw [Option.some_inj]
    constructor
    · rintro rfl
      exact ⟨⟨hne, hds, rfl⟩, hlt⟩
    · exact fun h => h.1.2.2
  · refine iff_of_false nofun ?_
    rintro ⟨⟨-, -, rfl⟩, h⟩
    exact hlt h

/-- A natural number is read as a width of that many columns, if there is one. -/
theorem ofNat_eq_ok_iff {n : ℕ} {t : IndentToken} :
    ofNat n = .ok t ↔ ∃ size : IndentSize, size.columns = n ∧ t = .width size := by
  unfold ofNat IndentSize.ofNat IndentSize.ofNat?
  by_cases h : 1 ≤ n ∧ n ≤ 8
  · rw [dif_pos h]
    constructor
    · intro ht
      exact ⟨⟨n, h.1, h.2⟩, rfl, (Except.ok.inj ht).symm⟩
    · rintro ⟨size, rfl, rfl⟩
      rfl
  · rw [dif_neg h]
    refine iff_of_false nofun ?_
    rintro ⟨size, rfl, -⟩
    exact h ⟨size.one_le, size.le_eight⟩

/-- A floating-point number is found to be a number of one digit if that is its value. -/
theorem wholeByte?_eq_some_iff {x : Float} {n : ℕ} (h : n < 10) :
    wholeByte? x = some n ↔ Decimal.value? x = some (n : ℚ) := by
  have hbeq : ∀ m < 10, (x == Float.ofNat m) = true ↔ Decimal.value? x = some (m : ℚ) :=
    fun m hm => Decimal.beq_iff_value? (Decimal.value?_ofNat hm)
  unfold wholeByte?
  rw [List.find?_range_eq_some, hbeq n h]
  refine ⟨fun hfound => hfound.1, fun hx => ⟨hx, List.mem_range.mpr (by omega), ?_⟩⟩
  -- a smaller number is another value
  intro m hm
  rw [Bool.not_eq_true', Bool.eq_false_iff, ne_eq, hbeq m (by omega), hx, Option.some_inj]
  exact fun heq => absurd (Nat.cast_injective heq) hm.ne'

/-! ## Numbers -/

/-- An integer is read as the width of that many columns. -/
theorem ofDatum_int_iff {n : ℤ} {t : IndentToken} :
    ofDatum (.int n) = .ok t ↔ ∃ size : IndentSize, n = size.columns ∧ t = .width size := by
  unfold ofDatum
  dsimp only
  split_ifs with hwide hneg
  · refine iff_of_false nofun ?_
    rintro ⟨size, rfl, -⟩
    have hone := size.one_le
    have height := size.le_eight
    rw [Bool.or_eq_true, decide_eq_true_eq, decide_eq_true_eq] at hwide
    omega
  · refine iff_of_false nofun ?_
    rintro ⟨size, rfl, -⟩
    omega
  · rw [ofNat_eq_ok_iff]
    refine exists_congr fun size => and_congr_left' ?_
    omega

/-- A floating-point number is read as the width of that many columns. -/
theorem ofDatum_real_iff {x : Float} {t : IndentToken} :
    ofDatum (.real x) = .ok t ↔
      ∃ size : IndentSize, Decimal.value? x = some (size.columns : ℚ) ∧ t = .width size := by
  have hwhole : ∀ size : IndentSize, wholeByte? x = some size.columns ↔
      Decimal.value? x = some (size.columns : ℚ) := fun size =>
    wholeByte?_eq_some_iff (Nat.lt_of_le_of_lt size.le_eight (by decide))
  simp only [← hwhole]
  unfold ofDatum
  dsimp only
  generalize wholeByte? x = found
  cases found with
  | none => exact iff_of_false nofun (by rintro ⟨_, hfound, -⟩; cases hfound)
  | some n =>
    dsimp only
    rw [ofNat_eq_ok_iff]
    refine exists_congr fun size => and_congr_left' ?_
    rw [Option.some_inj, eq_comm]

/-! ## Texts -/

/-- The text is one of the words for tabs, with its letters in either case. -/
def TabWord (t : List Char) : Prop :=
  ∃ w ∈ ["tab", "tabs"],
    List.Forall₂ (fun c d => c = Text.lowerAscii d ∨ c = Text.upperAscii d) t w.toList

/-- The words for tabs are compared without regard to case. -/
theorem tabWord_iff {t : List Char} :
    (Text.eqIgnoringAsciiCase t "tab".toList || Text.eqIgnoringAsciiCase t "tabs".toList) = true ↔
      TabWord t := by
  rw [Bool.or_eq_true, Text.eqIgnoringAsciiCase_iff, Text.eqIgnoringAsciiCase_iff]
  unfold TabWord
  simp only [List.mem_cons, List.not_mem_nil, or_false, exists_eq_or_imp, exists_eq_left]

/-- The letters of the words for tabs. -/
def tabLetters : List Char := ['t', 'T', 'a', 'A', 'b', 'B', 's', 'S']

/-- A word for tabs consists of these letters. -/
theorem TabWord.mem {t : List Char} (h : TabWord t) : ∀ c ∈ t, c ∈ tabLetters := by
  obtain ⟨w, hw, h⟩ := h
  have hletters : ∀ w ∈ ["tab", "tabs"],
      w.toList.map Text.lowerAscii ⊆ tabLetters ∧ w.toList.map Text.upperAscii ⊆ tabLetters := by
    decide
  intro c hc
  -- the characters in one place of the text and of the word differ in case only
  rw [← Text.eqIgnoringAsciiCase_iff] at h
  have hmem := List.mem_map_of_mem (f := Text.lowerAscii) hc
  rw [beq_iff_eq.mp h] at hmem
  obtain ⟨d, hd, hcase⟩ := List.mem_map.mp hmem
  rcases Text.lowerAscii_eq_iff.mp hcase.symm with rfl | rfl
  · exact (hletters w hw).1 (List.mem_map_of_mem hd)
  · exact (hletters w hw).2 (List.mem_map_of_mem hd)

/-- There is no white space in a word for tabs, so there is none at its ends. -/
theorem TabWord.trimmed {t : List Char} (h : TabWord t) : Text.Trimmed t := by
  have hletters : tabLetters.all (!Text.isBlank ·) = true := by decide
  apply Text.trimmed_of_forall
  intro c hc
  rw [← Bool.not_eq_true']
  exact List.all_eq_true.mp hletters c (h.mem c hc)

/-- A number is no word for tabs. -/
theorem not_tabWord {t : List Char} {n : ℕ} (h : Numeral t n) : ¬TabWord t := by
  intro hword
  have hletters : tabLetters.all (fun c => !(c.isDigit || c == '+')) = true := by decide
  obtain ⟨c, hc⟩ := List.exists_mem_of_ne_nil t h.ne_nil
  have hletter := List.all_eq_true.mp hletters c (hword.mem c hc)
  rw [Bool.not_eq_true', Bool.or_eq_false_iff] at hletter
  rcases h.mem c hc with hdigit | rfl
  · rw [hdigit] at hletter
    exact Bool.noConfusion hletter.1
  · exact absurd hletter.2 (by decide)

/-- A text is read by what stands between its white space. -/
theorem ofText_of_padded {s : String} {t : List Char} (ht : Text.Trimmed t)
    (hs : Text.Padded t s.toList) : ofText s =
      if Text.eqIgnoringAsciiCase t "tab".toList || Text.eqIgnoringAsciiCase t "tabs".toList then
        .ok .tab
      else match digitsValue? t with
        | some n => ofNat n
        | none => Datum.fail (.indentText s) := by
  rw [← (Text.trim_eq_iff ht).mpr hs]
  rfl

/-- A number between white space is read as a width of that many columns, if it has 64 bits at
most. -/
theorem ofText_numeral {s : String} {t : List Char} {n : ℕ} (hs : Text.Padded t s.toList)
    (ht : Numeral t n) : ofText s =
      if n < 2 ^ 64 then ofNat n else Datum.fail (.indentText s) := by
  rw [ofText_of_padded ht.trimmed hs, if_neg (mt tabWord_iff.mp (not_tabWord ht))]
  split_ifs with hlt
  · rw [digitsValue?_eq_some_iff.mpr ⟨ht, hlt⟩]
  · have hnone : digitsValue? t = none := by
      rw [Option.eq_none_iff_forall_ne_some]
      intro m hm
      obtain ⟨hnumeral, hbound⟩ := digitsValue?_eq_some_iff.mp hm
      rw [hnumeral.unique ht] at hbound
      exact hlt hbound
    rw [hnone]

/-- A text is read by what stands between its white space: a number as a width of that many columns,
and a word for tabs as tabs. -/
theorem ofText_eq_ok_iff {s : String} {token : IndentToken} :
    ofText s = .ok token ↔ ∃ t, Text.Padded t s.toList ∧
      ((∃ size : IndentSize, Numeral t size.columns ∧ token = .width size) ∨
        (TabWord t ∧ token = .tab)) := by
  constructor
  · intro h
    have hs := Text.exists_trim s.toList
    rw [ofText_of_padded (Text.trim_trimmed _) hs] at h
    refine ⟨_, hs, ?_⟩
    split_ifs at h with hword
    · exact .inr ⟨tabWord_iff.mp hword, (Except.ok.inj h).symm⟩
    · cases hdigits : digitsValue? (Text.trim s.toList) with
      | none =>
        rw [hdigits] at h
        cases h
      | some n =>
        rw [hdigits] at h
        obtain ⟨size, rfl, rfl⟩ := ofNat_eq_ok_iff.mp h
        exact .inl ⟨size, (digitsValue?_eq_some_iff.mp hdigits).1, rfl⟩
  · rintro ⟨t, hs, ⟨size, ht, rfl⟩ | ⟨ht, rfl⟩⟩
    · have hlt : size.columns < 2 ^ 64 := Nat.lt_of_le_of_lt size.le_eight (by decide)
      rw [ofText_numeral hs ht, if_pos hlt, ofNat_eq_ok_iff]
      exact ⟨size, rfl, rfl⟩
    · rw [ofText_of_padded ht.trimmed hs, if_pos (tabWord_iff.mpr ht)]

/-! ## JSON values -/

/-- The JSON value writes the token. -/
inductive Written : Json → IndentToken → Prop
  /-- An integer writes the width of that many columns. -/
  | int (size : IndentSize) : Written (.num (.int size.columns)) (.width size)
  /-- So does a floating-point number of that value. -/
  | real {x : Float} {size : IndentSize} (hx : Decimal.value? x = some (size.columns : ℚ)) :
    Written (.num (.real x)) (.width size)
  /-- So does a text of the digits of that number, between white space. -/
  | numeral {s : String} {t : List Char} {size : IndentSize} (hs : Text.Padded t s.toList)
    (ht : Numeral t size.columns) : Written (.str s) (.width size)
  /-- A word for tabs writes tabs, between white space. -/
  | word {s : String} {t : List Char} (hs : Text.Padded t s.toList) (ht : TabWord t) :
    Written (.str s) .tab

/-- A number, or the digits of a number, that is no width of an indentation. -/
inductive OutOfRange : Json → Prop
  | int {n : ℤ} (h : n < 1 ∨ 8 < n) : OutOfRange (.num (.int n))
  | real {x : Float} {q : ℚ} (hx : Decimal.value? x = some q) (h : q < 1 ∨ 8 < q) :
    OutOfRange (.num (.real x))
  | numeral {s : String} {t : List Char} {n : ℕ} (hs : Text.Padded t s.toList) (ht : Numeral t n)
    (h : n < 1 ∨ 8 < n) : OutOfRange (.str s)

/-- A JSON value is read as a token if it writes the token. -/
theorem ofDatum_ofJson_iff {v : Json} {token : IndentToken} :
    ofDatum (Datum.ofJson v) = .ok token ↔ Written v token := by
  rcases v with _ | b | ⟨n | x⟩ | s | vs | ms
  · exact iff_of_false nofun nofun
  · exact iff_of_false nofun nofun
  · show ofDatum (.int n) = _ ↔ _
    rw [ofDatum_int_iff]
    constructor
    · rintro ⟨size, rfl, rfl⟩
      exact .int size
    · rintro ⟨size⟩
      exact ⟨size, rfl, rfl⟩
  · show ofDatum (.real x) = _ ↔ _
    rw [ofDatum_real_iff]
    constructor
    · rintro ⟨size, hx, rfl⟩
      exact .real hx
    · rintro (_ | hx)
      exact ⟨_, hx, rfl⟩
  · show ofText s = _ ↔ _
    rw [ofText_eq_ok_iff]
    constructor
    · rintro ⟨t, hs, ⟨size, ht, rfl⟩ | ⟨ht, rfl⟩⟩
      · exact .numeral hs ht
      · exact .word hs ht
    · intro h
      cases h with
      | numeral hs ht => exact ⟨_, hs, .inl ⟨_, ht, rfl⟩⟩
      | word hs ht => exact ⟨_, hs, .inr ⟨ht, rfl⟩⟩
  · exact iff_of_false nofun nofun
  · exact iff_of_false nofun nofun

/-- What is out of range writes no token. -/
theorem OutOfRange.not_written {v : Json} (h : OutOfRange v) (token : IndentToken) :
    ¬Written v token := by
  have hsize : ∀ size : IndentSize, ¬(size.columns < 1 ∨ 8 < size.columns) := fun size => by
    have hone := size.one_le
    have height := size.le_eight
    omega
  intro hw
  cases h with
  | int h =>
    cases hw with
    | int size => exact hsize size (by omega)
  | real hx h =>
    cases hw with
    | @real _ size hx' =>
      obtain rfl := Option.some.inj (hx.symm.trans hx')
      exact hsize size (by exact_mod_cast h)
  | numeral hs ht h =>
    cases hw with
    | @numeral _ _ size hs' ht' =>
      obtain rfl := hs.unique hs' ht.trimmed ht'.trimmed
      obtain rfl := ht.unique ht'
      exact hsize size (by omega)
    | word hs' ht' =>
      obtain rfl := hs.unique hs' ht.trimmed ht'.trimmed
      exact not_tabWord ht ht'

/-- JSON values are read as the tokens that they write, and every other value is an error. A number
that is out of range is an error however great it is, and so are its digits. -/
theorem ofDatum_exact (v : Json) :
    (∀ token, ofDatum (Datum.ofJson v) = .ok token ↔ Written v token) ∧
      ((∃ f, ofDatum (Datum.ofJson v) = .error f) ↔ ∀ token, ¬Written v token) ∧
      (OutOfRange v → ∃ f, ofDatum (Datum.ofJson v) = .error f) := by
  have herror : (∃ f, ofDatum (Datum.ofJson v) = .error f) ↔ ∀ token, ¬Written v token := by
    simp only [← ofDatum_ofJson_iff]
    cases ofDatum (Datum.ofJson v) with
    | error f => exact iff_of_true ⟨f, rfl⟩ fun _ => nofun
    | ok token => exact iff_of_false nofun fun h => h token rfl
  exact ⟨fun token => ofDatum_ofJson_iff, herror, fun h => herror.mpr h.not_written⟩

/-- The digits of a number that leaves four when 64 bits are kept of it are out of range. -/
theorem ofDatum_exact_wide :
    let wide : Json := .str " +18446744073709551620\n"
    OutOfRange wide ∧ ∃ f, ofDatum (Datum.ofJson wide) = .error f := by
  intro wide
  have hpadded : Text.Padded "+18446744073709551620".toList " +18446744073709551620\n".toList :=
    ⟨[' '], ['\n'], by decide, by decide, by decide⟩
  have hnumeral : Numeral ('+' :: "18446744073709551620".toList) 18446744073709551620 :=
    .plus (by decide) (List.all_eq_true.mp (by decide))
  have hrange : OutOfRange wide := .numeral hpadded hnumeral (by decide)
  exact ⟨hrange, (ofDatum_exact wide).2.2 hrange⟩

end IndentToken

end CodeTidy
