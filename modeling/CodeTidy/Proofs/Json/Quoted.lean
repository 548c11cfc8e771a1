import CodeTidy.Proofs.Json.Literal

/-!
# Strings of JSON texts

A string is written between quotes, where each character stands for itself or is written as an
escape. `Quoted.determinate` says that the characters between the quotes tell the string, and where
it ends.
-/

namespace CodeTidy.Json

/-- Four hexadecimal digits and their value. -/
inductive Hex : ℕ → List Char → Prop
  | mk {a b c d : Char} {i j k l : ℕ} (ha : hexValue? a = some i) (hb : hexValue? b = some j)
    (hc : hexValue? c = some k) (hd : hexValue? d = some l) :
    Hex (((i * 16 + j) * 16 + k) * 16 + l) [a, b, c, d]

/-- The ways to write a character in a string. -/
inductive Escape : Char → List Char → Prop
  /-- As itself. -/
  | plain {c : Char} (hcontrol : ¬c.toNat < 0x20) (hquote : c ≠ '"') (hslash : c ≠ '\\') :
    Escape c [c]
  /-- As a letter behind a backslash. -/
  | letter {e c : Char} (h : escapeChar? e = some c) : Escape c ['\\', e]
  /-- As its number, which is none of a surrogate. -/
  | unit {n : ℕ} {s : List Char} (hs : Hex n s) (hn : n < 0xd800 ∨ 0xdfff < n) :
    Escape (Char.ofNat n) ('\\' :: 'u' :: s)
  /-- As a leading and a trailing surrogate. -/
  | pair {n m : ℕ} {s t : List Char} (hs : Hex n s) (hn : 0xd800 ≤ n ∧ n ≤ 0xdbff) (ht : Hex m t)
    (hm : 0xdc00 ≤ m ∧ m ≤ 0xdfff) :
    Escape (Char.ofNat ((n - 0xd800) * 1024 + (m - 0xdc00) + 0x10000))
      ('\\' :: 'u' :: (s ++ '\\' :: 'u' :: t))

/-- The ways to write the characters of a string. -/
inductive Encodes : List Char → List Char → Prop
  | nil : Encodes [] []
  | cons {c : Char} {cs s t : List Char} (hc : Escape c s) (hcs : Encodes cs t) :
    Encodes (c :: cs) (s ++ t)

/-- The ways to write a string with its quotes. -/
inductive Quoted : String → List Char → Prop
  | mk {cs s : List Char} (h : Encodes cs s) : Quoted (String.ofList cs) ('"' :: (s ++ ['"']))

/-- Four digits tell their value, and what follows them. -/
theorem Hex.determinate {n m : ℕ} {s t r r' : List Char} (hs : Hex n s) (ht : Hex m t)
    (h : s ++ r = t ++ r') : n = m ∧ s = t ∧ r = r' := by
  obtain ⟨ha, hb, hc, hd⟩ := hs
  obtain ⟨ha', hb', hc', hd'⟩ := ht
  simp only [List.cons_append, List.nil_append, List.cons.injEq] at h
  obtain ⟨rfl, rfl, rfl, rfl, rfl⟩ := h
  obtain rfl := Option.some.inj (ha.symm.trans ha')
  obtain rfl := Option.some.inj (hb.symm.trans hb')
  obtain rfl := Option.some.inj (hc.symm.trans hc')
  obtain rfl := Option.some.inj (hd.symm.trans hd')
  exact ⟨rfl, rfl, rfl⟩

/-- A character written as itself is no backslash. -/
theorem plain_ne {c : Char} {r s : List Char} (hslash : c ≠ '\\') : [c] ++ r ≠ '\\' :: s :=
  fun h => hslash (List.cons.inj h).1

/-- No letter behind a backslash is the `u` of an escape by number. -/
theorem letter_ne {e c : Char} {r s : List Char} (h : escapeChar? e = some c) :
    ['\\', e] ++ r ≠ '\\' :: 'u' :: s := by
  intro heq
  obtain rfl : e = 'u' := (List.cons.inj (List.cons.inj heq).2).1
  have hnone : escapeChar? 'u' = none := by decide
  rw [hnone] at h
  exact absurd h nofun

/-- What a character is written as tells it, and what follows it. -/
theorem Escape.determinate {c c' : Char} {s s' r r' : List Char} (hc : Escape c s)
    (hc' : Escape c' s') (h : s ++ r = s' ++ r') : c = c' ∧ s = s' ∧ r = r' := by
  cases hc with
  | plain hcontrol hquote hslash =>
    cases hc' with
    | plain hcontrol' hquote' hslash' =>
      obtain ⟨rfl, hr⟩ := List.cons.inj h
      exact ⟨rfl, rfl, hr⟩
    | letter _ => exact absurd h (plain_ne hslash)
    | unit _ _ => exact absurd h (plain_ne hslash)
    | pair _ _ _ _ => exact absurd h (plain_ne hslash)
  | letter he =>
    cases hc' with
    | plain hcontrol' hquote' hslash' => exact absurd h.symm (plain_ne hslash')
    | letter he' =>
      obtain ⟨rfl, hr⟩ := List.cons.inj (List.cons.inj h).2
      exact ⟨Option.some.inj (he.symm.trans he'), rfl, hr⟩
    | unit _ _ => exact absurd h (letter_ne he)
    | pair _ _ _ _ => exact absurd h (letter_ne he)
  | unit hs hn =>
    cases hc' with
    | plain hcontrol' hquote' hslash' => exact absurd h.symm (plain_ne hslash')
    | letter he' => exact absurd h.symm (letter_ne he')
    | unit hs' hn' =>
      obtain ⟨rfl, rfl, hr⟩ := hs.determinate hs' (List.cons.inj (List.cons.inj h).2).2
      exact ⟨rfl, rfl, hr⟩
    | pair hs' hn' ht' hm' =>
      -- The number of a character is never the first half of a pair.
      simp only [List.cons_append, List.append_assoc, List.cons.injEq, true_and] at h
      obtain ⟨rfl, -, -⟩ := hs.determinate hs' h
      omega
  | pair hs hn ht hm =>
    cases hc' with
    | plain hcontrol' hquote' hslash' => exact absurd h.symm (plain_ne hslash')
    | letter he' => exact absurd h.symm (letter_ne he')
    | unit hs' hn' =>
      simp only [List.cons_append, List.append_assoc, List.cons.injEq, true_and] at h
      obtain ⟨rfl, -, -⟩ := hs.determinate hs' h
      omega
    | pair hs' hn' ht' hm' =>
      simp only [List.cons_append, List.append_assoc, List.cons.injEq, true_and] at h
      obtain ⟨rfl, rfl, hrest⟩ := hs.determinate hs' h
      simp only [List.cons.injEq, true_and] at hrest
      obtain ⟨rfl, rfl, hr⟩ := ht.determinate ht' hrest
      exact ⟨rfl, rfl, hr⟩

/-- What a character is written as does not start with a quote. -/
theorem Escape.ne_quote {c : Char} {s r t : List Char} (h : Escape c s) : s ++ r ≠ '"' :: t := by
  cases h with
  | plain hcontrol hquote hslash => exact fun heq => hquote (List.cons.inj heq).1
  | letter _ => exact nofun
  | unit _ _ => exact nofun
  | pair _ _ _ _ => exact nofun

/-- What characters are written as tells them, up to the quote behind them. -/
theorem Encodes.determinate {cs cs' s s' r r' : List Char} (hcs : Encodes cs s)
    (hcs' : Encodes cs' s') (h : s ++ '"' :: r = s' ++ '"' :: r') :
    cs = cs' ∧ s = s' ∧ r = r' := by
  induction hcs generalizing cs' s' with
  | nil =>
    cases hcs' with
    | nil => exact ⟨rfl, rfl, (List.cons.inj h).2⟩
    | cons hc' hcs' =>
      rw [List.append_assoc] at h
      exact absurd h.symm hc'.ne_quote
  | cons hc hcs ih =>
    cases hcs' with
    | nil =>
      rw [List.append_assoc] at h
      exact absurd h hc.ne_quote
    | cons hc' hcs' =>
      rw [List.append_assoc, List.append_assoc] at h
      obtain ⟨rfl, rfl, hrest⟩ := hc.determinate hc' h
      obtain ⟨rfl, rfl, hr⟩ := ih hcs' hrest
      exact ⟨rfl, rfl, hr⟩

/-- What a string is written as tells it, and what follows it. -/
theorem Quoted.determinate {x x' : String} {s s' r r' : List Char} (hx : Quoted x s)
    (hx' : Quoted x' s') (h : s ++ r = s' ++ r') : x = x' ∧ s = s' ∧ r = r' := by
  obtain ⟨hcs⟩ := hx
  obtain ⟨hcs'⟩ := hx'
  simp only [List.cons_append, List.append_assoc, List.cons.injEq, true_and] at h
  obtain ⟨rfl, rfl, hr⟩ := hcs.determinate hcs' h
  exact ⟨rfl, rfl, hr⟩

end CodeTidy.Json
