import CodeTidy.Json.Printer
import CodeTidy.Settings.Basic
import Mathlib.Algebra.Group.Nat.Defs
import Mathlib.Data.List.TakeWhile

/-!
# The text of settings

Settings are written as a compact JSON object with a fixed order of keys. `toText_inj` says that
the text tells the settings, and `length_compact_le` that it is short. Each value is `Separable`:
where it ends can be read off the text, so the values are told one after the other.
-/

namespace CodeTidy

namespace Json

/-- A mark that stands behind a value of an object. -/
def IsMark (c : Char) : Prop := c = ',' ∨ c = '\x7d'

/-- Values written this way tell themselves and where they end. -/
def Separable {α : Type} (write : α → Json) : Prop :=
  ∀ (a b : α) (c d : Char) (x y : List Char), IsMark c → IsMark d →
    compact (write a) ++ c :: x = compact (write b) ++ d :: y → a = b ∧ c :: x = d :: y

/-- The digits of a number are digits. -/
theorem natDigits_isDigit {n : ℕ} : ∀ c ∈ Decimal.natDigits n, c.isDigit = true :=
  fun _ hc => Nat.isDigit_of_mem_toDigits (b := 10) (by decide) (by decide) hc

/-- A number is told by its digits. -/
theorem natDigits_inj {m n : ℕ} (h : Decimal.natDigits m = Decimal.natDigits n) : m = n := by
  unfold Decimal.natDigits at h
  rw [← Nat.ofDigitChars_ten_toDigits (n := m), h, Nat.ofDigitChars_ten_toDigits]

/-- A mark is no digit. -/
theorem IsMark.not_isDigit {c : Char} (h : IsMark c) : c.isDigit = false := by
  rcases h with rfl | rfl <;> decide

/-- The digits of a number end at a mark. -/
theorem takeWhile_natDigits {n : ℕ} {c : Char} (hc : IsMark c) (x : List Char) :
    (Decimal.natDigits n ++ c :: x).takeWhile Char.isDigit = Decimal.natDigits n := by
  rw [List.takeWhile_append_of_pos natDigits_isDigit,
    List.takeWhile_cons_of_neg (by simp [hc.not_isDigit]), List.append_nil]

/-- A natural number is written as its digits. -/
theorem compact_ofNat (n : ℕ) : compact (.ofNat n) = Decimal.natDigits n := by
  show intText n = Decimal.natDigits n
  unfold intText
  rw [if_neg (by omega), Int.natAbs_natCast]

/-- Natural numbers are separable. -/
theorem separable_ofNat : Separable Json.ofNat := by
  intro a b c d x y hc hd h
  rw [compact_ofNat, compact_ofNat] at h
  have hdigits : Decimal.natDigits a = Decimal.natDigits b := by
    rw [← takeWhile_natDigits hc x, h, takeWhile_natDigits hd y]
  rw [hdigits] at h
  exact ⟨natDigits_inj hdigits, List.append_cancel_left h⟩

/-- Truth values are separable. -/
theorem separable_bool : Separable Json.bool := by
  intro a b c d x y _ _ h
  cases a <;> cases b <;> simp_all [compact]

/-- The characters of a text between its quotes. -/
def body (s : String) : List Char := s.toList.flatMap stringChar

/-- Names without a quote in them that tell what they name are separable. -/
theorem separable_name {α : Type} {name : α → String} (hquote : ∀ a, '"' ∉ body (name a))
    (hinj : ∀ a b, body (name a) = body (name b) → a = b) : Separable fun a => .str (name a) := by
  intro a b c d x y _ _ h
  -- The name ends at the first quote behind its own.
  have htake : ∀ a rest, (body (name a) ++ '"' :: rest).takeWhile (· != '"') = body (name a) := by
    intro a rest
    have hpos : ∀ e ∈ body (name a), (e != '"') = true := by
      intro e he
      rw [bne_iff_ne]
      rintro rfl
      exact hquote a he
    rw [List.takeWhile_append_of_pos hpos, List.takeWhile_cons_of_neg (by simp), List.append_nil]
  have hrest : body (name a) ++ '"' :: c :: x = body (name b) ++ '"' :: d :: y := by
    simpa [compact, stringText, body] using h
  have hname : body (name a) = body (name b) := by
    rw [← htake a (c :: x), hrest, htake b (d :: y)]
  rw [hname] at hrest
  exact ⟨hinj a b hname, (List.cons.inj (List.append_cancel_left hrest)).2⟩

/-- Behind the members of an object stands a mark. -/
theorem exists_mark (ms : List (String × Json)) (rest : List Char) :
    ∃ c x, IsMark c ∧ compactMembers ms ++ '\x7d' :: rest = c :: x := by
  cases ms with
  | nil => exact ⟨'\x7d', rest, .inr rfl, rfl⟩
  | cons m ms =>
    obtain ⟨k, v⟩ := m
    exact ⟨',', _, .inl rfl, by rw [compactMembers]; rfl⟩

/-- Two texts of a value and the members behind it tell the value and the members. -/
theorem Separable.value_inj {α : Type} {write : α → Json} (hw : Separable write) {a b : α}
    {ms ms' : List (String × Json)}
    (h : compact (write a) ++ (compactMembers ms ++ ['\x7d'])
      = compact (write b) ++ (compactMembers ms' ++ ['\x7d'])) :
    a = b ∧ compactMembers ms ++ ['\x7d'] = compactMembers ms' ++ ['\x7d'] := by
  obtain ⟨c, x, hc, hx⟩ := exists_mark ms []
  obtain ⟨d, y, hd, hy⟩ := exists_mark ms' []
  rw [hx, hy] at h ⊢
  exact hw a b c d x y hc hd h

/-- Two texts of members that start with the same key tell the first value and the members behind
it. -/
theorem Separable.member_inj {α : Type} {write : α → Json} (hw : Separable write) {k : String}
    {a b : α} {ms ms' : List (String × Json)}
    (h : compactMembers ((k, write a) :: ms) ++ ['\x7d']
      = compactMembers ((k, write b) :: ms') ++ ['\x7d']) :
    a = b ∧ compactMembers ms ++ ['\x7d'] = compactMembers ms' ++ ['\x7d'] := by
  refine hw.value_inj ?_
  rw [compactMembers, compactMembers] at h
  simpa using h

/-- Two objects that start with the same key tell the first value and the members behind it. -/
theorem Separable.object_inj {α : Type} {write : α → Json} (hw : Separable write) {k : String}
    {a b : α} {ms ms' : List (String × Json)}
    (h : compact (.obj ((k, write a) :: ms)) = compact (.obj ((k, write b) :: ms'))) :
    a = b ∧ compactMembers ms ++ ['\x7d'] = compactMembers ms' ++ ['\x7d'] := by
  refine hw.value_inj ?_
  rw [compact, compact] at h
  simpa using h

end Json

open Json

/-- The names of quote styles are separable. -/
theorem QuoteStyle.separable : Separable fun q : QuoteStyle => .str q.name := by
  apply separable_name
  · intro q
    cases q <;> decide
  · intro q q'
    cases q <;> cases q' <;> decide

/-- The names of policies for trailing commas are separable. -/
theorem TrailingComma.separable : Separable fun t : TrailingComma => .str t.name := by
  apply separable_name
  · intro t
    cases t <;> decide
  · intro t t'
    cases t <;> cases t' <;> decide

/-- The names of keyword cases are separable. -/
theorem KeywordCase.separable : Separable fun k : KeywordCase => .str k.name := by
  apply separable_name
  · intro k
    cases k <;> decide
  · intro k k'
    cases k <;> cases k' <;> decide

/-- The names of comma positions are separable. -/
theorem CommaPosition.separable : Separable fun p : CommaPosition => .str p.name := by
  apply separable_name
  · intro p
    cases p <;> decide
  · intro p p'
    cases p <;> cases p' <;> decide

/-- The text of settings tells the settings. -/
theorem Settings.toText_inj {s t : Settings} (h : Json.toText s.toJson = Json.toText t.toJson) :
    s = t := by
  have h := String.ofList_injective h
  unfold Settings.toJson at h
  -- One value after the other, in the order of the keys.
  obtain ⟨h1, h⟩ := separable_ofNat.object_inj h
  obtain ⟨h2, h⟩ := separable_bool.member_inj h
  obtain ⟨h3, h⟩ := QuoteStyle.separable.member_inj h
  obtain ⟨h4, h⟩ := separable_bool.member_inj h
  obtain ⟨h5, h⟩ := TrailingComma.separable.member_inj h
  obtain ⟨h6, h⟩ := separable_ofNat.member_inj h
  obtain ⟨h7, h⟩ := KeywordCase.separable.member_inj h
  obtain ⟨h8, h⟩ := CommaPosition.separable.member_inj h
  obtain ⟨h9, h⟩ := separable_bool.member_inj h
  obtain ⟨h10, h⟩ := separable_bool.member_inj h
  obtain ⟨h11, -⟩ := separable_bool.member_inj h
  obtain ⟨⟨_, _, _⟩, _, _, _, _, ⟨_, _⟩, _, _, _, _, _⟩ := s
  obtain ⟨⟨_, _, _⟩, _, _, _, _, ⟨_, _⟩, _, _, _, _, _⟩ := t
  simp_all

/-- The digits of a number below `10 ^ k` are `k` at most. -/
theorem Json.length_natDigits_le {n k : ℕ} (hk : 0 < k) (h : n < 10 ^ k) :
    (Decimal.natDigits n).length ≤ k :=
  (Nat.length_toDigits_le_iff (by decide) hk).mpr h

/-- The text of settings is short. -/
theorem Settings.length_compact_le (s : Settings) : (compact s.toJson).length ≤ 300 := by
  -- Each value is at most as long as its longest form, and the keys are fixed.
  have hindent : (Decimal.natDigits s.indentWidth.columns).length ≤ 1 :=
    length_natDigits_le (by decide) (by have := s.indentWidth.le_eight; omega)
  have hwrap : (Decimal.natDigits s.lineWrap.columns).length ≤ 20 :=
    length_natDigits_le (by decide) (by have := s.lineWrap.lt_bound; omega)
  have hbool : ∀ b : Bool, (compact (.bool b)).length ≤ 5 := by decide
  have hquote : ∀ q : QuoteStyle, (stringText q.name).length ≤ 8 := by
    intro q; cases q <;> decide
  have htrailing : ∀ t : TrailingComma, (stringText t.name).length ≤ 6 := by
    intro t; cases t <;> decide
  have hcase : ∀ k : KeywordCase, (stringText k.name).length ≤ 10 := by
    intro k; cases k <;> decide
  have hcomma : ∀ p : CommaPosition, (stringText p.name).length ≤ 8 := by
    intro p; cases p <;> decide
  have h2 := hbool s.useTabs
  have h3 := hquote s.quoteStyle
  have h4 := hbool s.semi
  have h5 := htrailing s.trailingComma
  have h7 := hcase s.keywordCase
  have h8 := hcomma s.commaPosition
  have h9 := hbool s.alignEntries
  have h10 := hbool s.alignComments
  have h11 := hbool s.indentTables
  have hkeys : ∀ k ∈ ["indentWidth", "useTabs", "quoteStyle", "semi", "trailingComma", "lineWrap",
      "keywordCase", "commaPosition", "alignEntries", "alignComments", "indentTables"],
      (stringText k).length ≤ 15 := by decide
  simp only [List.forall_mem_cons, List.not_mem_nil, false_imp_iff, implies_true, and_true] at hkeys
  obtain ⟨k1, k2, k3, k4, k5, k6, k7, k8, k9, k10, k11⟩ := hkeys
  unfold Settings.toJson
  simp only [compact, compactMembers, compact_ofNat, List.length_cons, List.length_append,
    List.length_nil]
  omega

end CodeTidy
