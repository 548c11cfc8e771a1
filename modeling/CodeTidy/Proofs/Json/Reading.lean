import CodeTidy.Proofs.Json.Document

/-!
# The reader follows the grammar

Each part of the reader takes characters off the front of the text that the grammar allows there,
and what it gives back is what they spell. `parse_spec` is the result for whole texts: a text that
is read is one of a document, and the value is the document with its numbers read and with one
member for each key.
-/

namespace CodeTidy.Json

/-- The members of an object that are kept, with the last value for each key. -/
def gather (ms : List (String × Json)) : List (String × Json) :=
  ms.foldl (fun done m => setMember m.1 m.2 done) []

/-- The value as which a document is read. -/
def Document.read : Document → Json
  | .null => .null
  | .bool b => .bool b
  | .num l => .num l.number
  | .str x => .str x
  | .arr ds => .arr (ds.map fun d => Document.read d)
  | .obj ms => .obj (gather (ms.map fun m => (m.1, Document.read m.2)))
termination_by d => d
decreasing_by
  · decreasing_tactic
  · rw [Tree.obj.sizeOf_spec]
    exact sizeOf_member_lt ‹_›

/-- A computation with two steps succeeds if both do. -/
theorem bind_eq_ok {ε α β : Type} {x : Except ε α} {f : α → Except ε β} {b : β} :
    x >>= f = .ok b ↔ ∃ a, x = .ok a ∧ f a = .ok b := by
  cases x with
  | error e => exact ⟨nofun, fun ⟨_, h, _⟩ => nomatch h⟩
  | ok a => exact ⟨fun h => ⟨a, rfl, h⟩, fun ⟨_, ha, h⟩ => by cases ha; exact h⟩

namespace Cursor

/-- Going on takes the next character off the text. -/
theorem next_rest {c : Cursor} {x : Char} {r : List Char} (h : c.rest = x :: r) :
    c.next.rest = r := by
  unfold next
  rw [h]

/-- What is skipped is white space. -/
theorem skipBlanks_spec (c : Cursor) : ∃ g, Spaces g ∧ c.rest = g ++ c.skipBlanks.rest := by
  unfold skipBlanks
  generalize c.place = p
  generalize c.rest = s
  induction s generalizing p with
  | nil => exact ⟨[], nofun, rfl⟩
  | cons x r ih =>
    unfold skipBlanks.go
    split_ifs with hx
    · obtain ⟨g, hg, hr⟩ := ih (p.after x)
      refine ⟨x :: g, List.forall_mem_cons.mpr ⟨hx, hg⟩, ?_⟩
      rw [List.cons_append, ← hr]
    · exact ⟨[], nofun, rfl⟩

end Cursor

/-! ## Strings -/

/-- Four hexadecimal digits are read. -/
theorem hexFour_spec {c c' : Cursor} {n : ℕ} (h : hexFour c = .ok (n, c')) :
    ∃ s, Hex n s ∧ c.rest = s ++ c'.rest := by
  unfold hexFour at h
  split at h
  · rename_i a b d e r hrest
    split at h
    · rename_i i j k l ha hb hd he
      obtain ⟨rfl, rfl⟩ := Prod.mk.inj (Except.ok.inj h)
      exact ⟨_, .mk ha hb hd he, hrest⟩
    · exact absurd h nofun
  · split at h <;> exact absurd h nofun

/-- The character wanted is read. -/
theorem expectInPair_spec {want : Char} {c c' : Cursor} (h : expectInPair want c = .ok c') :
    c.rest = want :: c'.rest := by
  unfold expectInPair at h
  split at h
  · exact absurd h nofun
  · rename_i x r hrest
    split_ifs at h with hx
    · obtain rfl := Except.ok.inj h
      rw [hrest, beq_iff_eq.mp hx]

/-- A character written as its number is read. -/
theorem unicodeEscape_spec {c c' : Cursor} {x : Char} (h : unicodeEscape c = .ok (x, c')) :
    ∃ s, Escape x ('\\' :: 'u' :: s) ∧ c.rest = s ++ c'.rest := by
  unfold unicodeEscape at h
  obtain ⟨⟨n, c₁⟩, hn, h⟩ := bind_eq_ok.mp h
  obtain ⟨s, hs, hrest⟩ := hexFour_spec hn
  dsimp only at h
  split_ifs at h with htrailing hunit
  · exact absurd h nofun
  · obtain ⟨rfl, rfl⟩ := Prod.mk.inj (Except.ok.inj h)
    refine ⟨s, .unit hs ?_, hrest⟩
    simp only [Bool.and_eq_true, Bool.or_eq_true, decide_eq_true_eq] at htrailing hunit
    omega
  · obtain ⟨c₂, hslash, h⟩ := bind_eq_ok.mp h
    obtain ⟨c₃, hletter, h⟩ := bind_eq_ok.mp h
    obtain ⟨⟨m, c₄⟩, hm, h⟩ := bind_eq_ok.mp h
    obtain ⟨t, ht, hrest'⟩ := hexFour_spec hm
    dsimp only at h
    split_ifs at h with hlone
    · exact absurd h nofun
    · obtain ⟨rfl, rfl⟩ := Prod.mk.inj (Except.ok.inj h)
      simp only [Bool.and_eq_true, Bool.or_eq_true, decide_eq_true_eq] at htrailing hunit hlone
      refine ⟨s ++ '\\' :: 'u' :: t, .pair hs (by omega) ht (by omega), ?_⟩
      rw [hrest, expectInPair_spec hslash, expectInPair_spec hletter, hrest', List.append_assoc]
      rfl

/-- The characters of a string are read up to its closing quote. -/
theorem stringBody_spec {fuel : ℕ} {done : List Char} {c c' : Cursor} {x : String}
    (h : stringBody fuel done c = .ok (x, c')) :
    ∃ cs s, Encodes cs s ∧ x = String.ofList (done.reverse ++ cs) ∧
      c.rest = s ++ '"' :: c'.rest := by
  induction fuel generalizing done c with
  | zero => exact absurd h nofun
  | succ fuel ih =>
    -- A character read goes to the front of those that the rest of the string holds.
    have hcons : ∀ {y : Char} {s : List Char} (d : Cursor), Escape y s → c.rest = s ++ d.rest →
        stringBody fuel (y :: done) d = .ok (x, c') →
        ∃ cs s, Encodes cs s ∧ x = String.ofList (done.reverse ++ cs) ∧
          c.rest = s ++ '"' :: c'.rest := by
      intro y s d hy hrest h
      obtain ⟨cs, t, hcs, rfl, hrest'⟩ := ih h
      refine ⟨y :: cs, s ++ t, .cons hy hcs, ?_, ?_⟩
      · rw [List.reverse_cons, List.append_assoc, List.singleton_append]
      · rw [hrest, hrest', List.append_assoc]
    unfold stringBody at h
    split at h
    · exact absurd h nofun
    · rename_i r hrest
      obtain ⟨rfl, rfl⟩ := Prod.mk.inj (Except.ok.inj h)
      exact ⟨[], [], .nil, by rw [List.append_nil], hrest⟩
    · rename_i r hrest
      dsimp only at h
      split at h
      · exact absurd h nofun
      · rename_i r'
        split at h
        · exact absurd h nofun
        · rename_i y c₁ hy
          obtain ⟨s, hs, hrest'⟩ := unicodeEscape_spec hy
          refine hcons c₁ hs ?_ h
          rw [hrest, List.cons_append, List.cons_append, ← hrest']
      · rename_i e r' _
        split at h
        · rename_i y hy
          exact hcons ⟨r', _⟩ (.letter hy) hrest h
        · exact absurd h nofun
    · rename_i y r hquote hslash hrest
      split_ifs at h with hcontrol
      · exact absurd h nofun
      · exact hcons ⟨r, _⟩ (.plain hcontrol hquote hslash) hrest h

/-- A string is read. -/
theorem string_spec {c c' : Cursor} {r : List Char} {x : String} (hc : c.rest = '"' :: r)
    (h : string c = .ok (x, c')) : ∃ s, Quoted x s ∧ c.rest = s ++ c'.rest := by
  obtain ⟨cs, s, hcs, rfl, hrest⟩ := stringBody_spec h
  refine ⟨'"' :: (s ++ ['"']), .mk hcs, ?_⟩
  rw [hc, ← Cursor.next_rest hc, hrest, List.cons_append, List.append_assoc]
  rfl

/-! ## Numbers -/

/-- Digits are read, up to something else. -/
theorem digits_spec (c : Cursor) :
    (∀ d ∈ (digits c).1, d.isDigit = true) ∧ c.rest = (digits c).1 ++ (digits c).2.rest :=
  ⟨fun _ hd => List.mem_takeWhile_imp hd, (List.takeWhile_append_dropWhile ..).symm⟩

/-- A number that does not overflow is computed. -/
theorem scaledNumber_spec {c : Cursor} {m : ℕ} {e : ℤ} {x : Float}
    (h : scaledNumber c m e = .ok x) : x = scaled m e := by
  unfold scaledNumber at h
  unfold scaled
  dsimp only at h ⊢
  split_ifs at h with hsign hsmall hinf hzero
  · exact absurd h nofun
  · rw [if_pos hsign, if_pos hsmall]
    exact (Except.ok.inj h).symm
  · rw [if_pos hsign, if_neg hsmall]
    exact (Except.ok.inj h).symm
  · exact absurd h nofun
  · rw [if_neg hsign]
    exact (Except.ok.inj h).symm

/-- The sign of an exponent is read: the plus or the minus that comes next, or nothing. -/
theorem sign_spec {c c' : Cursor} {negative : Bool}
    (h : (match c.rest with
      | '+' :: _ => (false, c.next)
      | '-' :: _ => (true, c.next)
      | _ => (false, c)) = (negative, c')) :
    ∃ sign, sign ∈ [[], ['+'], ['-']] ∧ c.rest = sign ++ c'.rest ∧
      (negative = true ↔ sign = ['-']) := by
  split at h
  · rename_i r hr
    obtain ⟨rfl, rfl⟩ := Prod.mk.inj h
    exact ⟨['+'], by simp, by rw [Cursor.next_rest hr, hr]; rfl, by simp⟩
  · rename_i r hr
    obtain ⟨rfl, rfl⟩ := Prod.mk.inj h
    exact ⟨['-'], by simp, by rw [Cursor.next_rest hr, hr]; rfl, by simp⟩
  · obtain ⟨rfl, rfl⟩ := Prod.mk.inj h
    exact ⟨[], by simp, rfl, by simp⟩

/-- An exponent is read. -/
theorem exponentPart_spec {c c' : Cursor} {mark : Char} {r : List Char} {m : ℕ} {start : ℤ}
    {x : Float} (hmark : mark ∈ ['e', 'E']) (hc : c.rest = mark :: r)
    (h : exponentPart c m start = .ok (x, c')) :
    ∃ e, c.rest = exponentText (some e) ++ c'.rest ∧ x = powered m start (some e) := by
  unfold exponentPart at h
  extract_lets c₁ at h
  split at h
  rename_i q negative c₂ hsplit
  obtain ⟨sign, hsign, hrest, hnegative⟩ := sign_spec hsplit
  split at h
  · exact absurd h nofun
  rename_i d ds hd
  split at h
  · exact absurd h nofun
  rename_i hdigit
  obtain ⟨hall, hdigits⟩ := digits_spec c₂
  have hne : (digits c₂).1 ≠ [] := by
    show c₂.rest.takeWhile Char.isDigit ≠ []
    rw [hd, List.takeWhile_cons_of_pos (by simpa using hdigit)]
    exact List.cons_ne_nil _ _
  let e : Exponent := ⟨mark, sign, (digits c₂).1, hmark, hsign, hne, hall⟩
  have htext : c.rest = exponentText (some e) ++ (digits c₂).2.rest := by
    have hnext : c₁.rest = r := Cursor.next_rest hc
    show c.rest = mark :: (sign ++ (digits c₂).1) ++ (digits c₂).2.rest
    rw [hc, ← hnext, hrest, List.cons_append, List.append_assoc, ← hdigits]
  dsimp only at h
  split at h
  · -- The exponent is too large, and the number is nothing.
    rename_i unread hunread
    split at h
    · exact absurd h nofun
    obtain ⟨rfl, rfl⟩ := Prod.mk.inj (Except.ok.inj h)
    refine ⟨e, htext, ?_⟩
    unfold powered Exponent.shift?
    dsimp only
    rw [hunread]
    rfl
  · rename_i hunread
    obtain ⟨y, hy, h⟩ := bind_eq_ok.mp h
    obtain ⟨rfl, rfl⟩ := Prod.mk.inj (Except.ok.inj h)
    refine ⟨e, htext, ?_⟩
    have hscaled := scaledNumber_spec hy
    simp only [hnegative] at hscaled
    unfold powered Exponent.shift?
    dsimp only
    rw [hunread]
    exact hscaled

/-- What stands behind the digits of a fraction is read: an exponent, or nothing. -/
theorem afterFraction_spec {c c' : Cursor} {m : ℕ} {start : ℤ} {x : Float}
    (h : afterFraction c m start = .ok (x, c')) :
    ∃ e, c.rest = exponentText e ++ c'.rest ∧ x = powered m start e := by
  unfold afterFraction at h
  split at h
  · rename_i r hc
    obtain ⟨e, he⟩ := exponentPart_spec (by simp) hc h
    exact ⟨some e, he⟩
  · rename_i r hc
    obtain ⟨e, he⟩ := exponentPart_spec (by simp) hc h
    exact ⟨some e, he⟩
  · obtain ⟨y, hy, h⟩ := bind_eq_ok.mp h
    obtain ⟨rfl, rfl⟩ := Prod.mk.inj (Except.ok.inj h)
    exact ⟨none, rfl, scaledNumber_spec hy⟩

/-- A fraction is read, with the exponent behind it. -/
theorem fractionPart_spec {c c' : Cursor} {r : List Char} {n : ℕ} {start : ℤ} {x : Float}
    (hc : c.rest = '.' :: r) (h : fractionPart c n start = .ok (x, c')) :
    ∃ f e, f ≠ [] ∧ (∀ d ∈ f, d.isDigit = true) ∧
      c.rest = pointed f ++ (exponentText e ++ c'.rest) ∧
      x = powered (addDigits n f).1 (start - (addDigits n f).2.1) e := by
  unfold fractionPart at h
  dsimp only at h
  obtain ⟨hall, hdigits⟩ := digits_spec c.next
  split at h
  · split at h <;> exact absurd h nofun
  · rename_i hne
    rw [List.isEmpty_iff] at hne
    obtain ⟨e, hrest, hx⟩ := afterFraction_spec h
    refine ⟨(digits c.next).1, e, hne, hall, ?_, hx⟩
    obtain ⟨d, ds, hds⟩ := List.exists_cons_of_ne_nil hne
    rw [hc, ← Cursor.next_rest hc, hdigits, hrest, hds]
    rfl

/-- The digits `ds` in front of the point have been read, up to `after`. They start with a zero only
if there is no other. -/
structure Whole (c after : Cursor) (ds : List Char) : Prop where
  nonempty : ds ≠ []
  isDigit : ∀ d ∈ ds, d.isDigit = true
  zero : ds.head? = some '0' → ds = ['0']
  rest : c.rest = ds ++ after.rest

/-- The digits in front of the point are read. -/
theorem whole_spec {c : Cursor} {d : Char} {r : List Char} (hc : c.rest = d :: r)
    (hd : d.isDigit = true) :
    let p := if d == '0' then (['0'], c.next) else digits c
    Whole c p.2 p.1 := by
  dsimp only
  split_ifs with hzero
  · rw [beq_iff_eq] at hzero
    subst hzero
    refine ⟨by simp, ?_, fun _ => rfl, ?_⟩
    · intro x hx
      rw [List.mem_singleton.mp hx]
      exact hd
    · rw [Cursor.next_rest hc]
      exact hc
  · obtain ⟨hall, hdigits⟩ := digits_spec c
    have hcons : (digits c).1 = d :: r.takeWhile Char.isDigit := by
      show c.rest.takeWhile Char.isDigit = d :: r.takeWhile Char.isDigit
      rw [hc, List.takeWhile_cons_of_pos hd]
    refine ⟨by rw [hcons]; exact List.cons_ne_nil _ _, hall, ?_, hdigits⟩
    intro hhead
    rw [hcons] at hhead
    obtain rfl := Option.some.inj hhead
    exact absurd rfl hzero

/-- The number `n` has been read, up to `c'`, where the sign was read before. -/
def ReadsNumber (negative : Bool) (c c' : Cursor) (n : Number) : Prop :=
  ∃ l : Literal, l.negative = negative ∧ c.rest = l.unsigned ++ c'.rest ∧ n = l.number

section
variable {c after c' : Cursor} {ds : List Char}

/-- With a fraction or an exponent behind the digits, or too many digits for 64 bits, the number is
a floating-point number. -/
theorem Whole.real (h : Whole c after ds) {negative : Bool} {f : List Char} {e : Option Exponent}
    (hf : ∀ d ∈ f, d.isDigit = true)
    (hnot : f ≠ [] ∨ e ≠ none ∨ (addDigits 0 ds).2.2 ≠ 0)
    (hafter : after.rest = pointed f ++ (exponentText e ++ c'.rest)) {x : Float}
    (hx : x = powered (addDigits (addDigits 0 ds).1 f).1
      ((addDigits 0 ds).2.2 - (addDigits (addDigits 0 ds).1 f).2.1) e) :
    ReadsNumber negative c c' (.real (if negative then -x else x)) := by
  let l : Literal := ⟨negative, ds, f, e, h.nonempty, h.isDigit, h.zero, hf⟩
  have hnumber : l.number = .real (if negative then -x else x) := by
    rw [hx]
    exact Literal.number_real (l := l) hnot
  refine ⟨l, rfl, ?_, hnumber.symm⟩
  rw [h.rest, hafter]
  show ds ++ (pointed f ++ (exponentText e ++ c'.rest)) =
    ds ++ (pointed f ++ exponentText e) ++ c'.rest
  simp only [List.append_assoc]

/-- With nothing behind the digits, the number is an integer if 64 bits hold it. -/
theorem Whole.integer (h : Whole c after ds) (negative : Bool)
    (hleft : (addDigits 0 ds).2.2 = 0) :
    ReadsNumber negative c after
      (if !negative then .int (addDigits 0 ds).1
      else if (addDigits 0 ds).1 == 0 || 0x8000000000000000 < (addDigits 0 ds).1 then
        .real (-(addDigits 0 ds).1.toUInt64.toFloat)
      else .int (-(addDigits 0 ds).1)) := by
  let l : Literal :=
    ⟨negative, ds, [], none, h.nonempty, h.isDigit, h.zero, List.forall_mem_nil _⟩
  refine ⟨l, rfl, ?_, (Literal.number_integer (l := l) rfl rfl hleft).symm⟩
  rw [h.rest]
  show ds ++ after.rest = ds ++ [] ++ after.rest
  rw [List.append_nil]

end

/-- The digits of a number are read, and what stands behind them. -/
theorem number_spec {c c' : Cursor} {negative : Bool} {n : Number}
    (h : number negative c = .ok (n, c')) : ReadsNumber negative c c' n := by
  unfold number at h
  split at h
  · exact absurd h nofun
  rename_i d r hc
  split at h
  · exact absurd h nofun
  rename_i hdigit
  have hwhole := whole_spec hc (by simpa using hdigit)
  dsimp only at hwhole
  split at h
  rename_i q ds after hq
  rw [hq] at hwhole
  extract_lets leadingZero signed at h
  split at h
  · exact absurd h nofun
  split at h
  rename_i q' m used left hadd
  have hm : (addDigits 0 ds).1 = m := by rw [hadd]
  have hleft : (addDigits 0 ds).2.2 = left := by rw [hadd]
  subst hm hleft
  -- The sign goes to the number computed, and whatever was read in front of it stays read.
  have hsigned : ∀ {y : Except Fault (Float × Cursor)}, signed y = .ok (n, c') →
      ∃ x, y = .ok (x, c') ∧ n = .real (if negative then -x else x) := by
    intro y hy
    obtain ⟨⟨x, c₁⟩, hx, hn⟩ := bind_eq_ok.mp hy
    obtain ⟨rfl, rfl⟩ := Prod.mk.inj (Except.ok.inj hn)
    exact ⟨x, hx, rfl⟩
  have hexponent : ∀ {mark : Char} {r : List Char}, mark ∈ ['e', 'E'] → after.rest = mark :: r →
      signed (exponentPart after (addDigits 0 ds).1 (addDigits 0 ds).2.2) = .ok (n, c') →
      ReadsNumber negative c c' n := by
    intro mark r hmark hr h
    obtain ⟨x, hx, rfl⟩ := hsigned h
    obtain ⟨e, hafter, hvalue⟩ := exponentPart_spec hmark hr hx
    exact hwhole.real (f := []) (List.forall_mem_nil _) (.inr (.inl (Option.some_ne_none e))) hafter
      (by simpa [addDigits] using hvalue)
  split at h
  · rename_i r' hr
    obtain ⟨x, hx, rfl⟩ := hsigned h
    obtain ⟨f, e, hf, hdigits, hafter, hvalue⟩ := fractionPart_spec hr hx
    exact hwhole.real hdigits (.inl hf) hafter hvalue
  · rename_i r' hr
    exact hexponent (by simp) hr h
  · rename_i r' hr
    exact hexponent (by simp) hr h
  · split at h
    · -- Digits are left over, so the number is computed all the same.
      rename_i hleft
      obtain ⟨x, hx, rfl⟩ := hsigned h
      obtain ⟨y, hy, hx⟩ := bind_eq_ok.mp hx
      obtain ⟨rfl, rfl⟩ := Prod.mk.inj (Except.ok.inj hx)
      have hvalue := scaledNumber_spec hy
      exact hwhole.real (f := []) (e := none) (List.forall_mem_nil _)
        (.inr (.inr (by simpa using hleft))) rfl (by simpa [addDigits, powered] using hvalue)
    · rename_i hleft
      have hinteger := hwhole.integer negative (by simpa using hleft)
      split_ifs at h hinteger with hpositive hlarge
      · obtain ⟨rfl, rfl⟩ := Prod.mk.inj (Except.ok.inj h)
        exact hinteger
      · obtain ⟨rfl, rfl⟩ := Prod.mk.inj (Except.ok.inj h)
        exact hinteger
      · obtain ⟨rfl, rfl⟩ := Prod.mk.inj (Except.ok.inj h)
        exact hinteger

/-! ## Values -/

/-- The letters of a word are read. -/
theorem ident_spec {ws : List Char} {c c' : Cursor} (h : ident ws c = .ok c') :
    c.rest = ws ++ c'.rest := by
  induction ws generalizing c with
  | nil =>
    obtain rfl := Except.ok.inj h
    rfl
  | cons w ws ih =>
    unfold ident at h
    split at h
    · exact absurd h nofun
    · rename_i x r hc
      split_ifs at h with hx
      · rw [hc, beq_iff_eq.mp hx, List.cons_append, ← ih h, Cursor.next_rest hc]
      · exact absurd h nofun

/-- A word is read, its first letter included. -/
theorem ident_next_spec {x : Char} {ws r : List Char} {c c' : Cursor} (hc : c.rest = x :: r)
    (h : ident ws c.next = .ok c') : c.rest = x :: ws ++ c'.rest := by
  rw [hc, ← Cursor.next_rest hc, ident_spec h, List.cons_append]

/-- A value without nested values is read. -/
theorem scalar_spec {c c' : Cursor} {v : Json} (h : scalar c = .ok (v, c')) :
    ∃ d s, Spells d s ∧ c.rest = s ++ c'.rest ∧ v = Document.read d := by
  unfold scalar at h
  split at h
  · exact absurd h nofun
  · rename_i r hc
    obtain ⟨c₁, hword, h⟩ := bind_eq_ok.mp h
    obtain ⟨rfl, rfl⟩ := Prod.mk.inj (Except.ok.inj h)
    exact ⟨.null, _, .null, ident_next_spec hc hword, by rw [Document.read]⟩
  · rename_i r hc
    obtain ⟨c₁, hword, h⟩ := bind_eq_ok.mp h
    obtain ⟨rfl, rfl⟩ := Prod.mk.inj (Except.ok.inj h)
    exact ⟨.bool true, _, .true, ident_next_spec hc hword, by rw [Document.read]⟩
  · rename_i r hc
    obtain ⟨c₁, hword, h⟩ := bind_eq_ok.mp h
    obtain ⟨rfl, rfl⟩ := Prod.mk.inj (Except.ok.inj h)
    exact ⟨.bool false, _, .false, ident_next_spec hc hword, by rw [Document.read]⟩
  · rename_i r hc
    obtain ⟨⟨x, c₁⟩, hx, h⟩ := bind_eq_ok.mp h
    obtain ⟨rfl, rfl⟩ := Prod.mk.inj (Except.ok.inj h)
    obtain ⟨s, hs, hrest⟩ := string_spec hc hx
    exact ⟨.str x, s, .str hs, hrest, by rw [Document.read]⟩
  · rename_i r hc
    obtain ⟨⟨n, c₁⟩, hn, h⟩ := bind_eq_ok.mp h
    obtain ⟨rfl, rfl⟩ := Prod.mk.inj (Except.ok.inj h)
    obtain ⟨l, hsign, hrest, rfl⟩ := number_spec hn
    refine ⟨.num l, _, .num l, ?_, by rw [Document.read]⟩
    rw [Literal.text, if_pos hsign, hc, ← Cursor.next_rest hc, hrest, List.cons_append]
  · split at h
    · obtain ⟨⟨n, c₁⟩, hn, h⟩ := bind_eq_ok.mp h
      obtain ⟨rfl, rfl⟩ := Prod.mk.inj (Except.ok.inj h)
      obtain ⟨l, hsign, hrest, rfl⟩ := number_spec hn
      refine ⟨.num l, _, .num l, ?_, by rw [Document.read]⟩
      rw [Literal.text, if_neg (by rw [hsign]; decide), hrest]
    · exact absurd h nofun

/-- The reader `item` follows the grammar: it skips white space and takes a document off the
text. -/
def Follows (item : Cursor → Except Fault (Json × Cursor)) : Prop :=
  ∀ (c c' : Cursor) (v : Json), item c = .ok (v, c') →
    ∃ g d s, Spaces g ∧ Spells d s ∧ c.rest = g ++ (s ++ c'.rest) ∧ v = Document.read d

/-- White space in front of white space is white space. -/
theorem Spaces.append {g g' : List Char} (hg : Spaces g) (hg' : Spaces g') : Spaces (g ++ g') :=
  List.forall_mem_append.mpr ⟨hg, hg'⟩

section
variable {item : Cursor → Except Fault (Json × Cursor)}

/-- The items of an array behind the first one are read. -/
theorem itemsFrom_spec (hitem : Follows item) {fuel : ℕ} {done vs : List Json} {c c' : Cursor}
    (h : itemsFrom item fuel done c = .ok (vs, c')) :
    ∃ ds s, Following Spells ds s ∧ c.rest = s ++ ']' :: c'.rest ∧
      vs = done.reverse ++ ds.map fun d => Document.read d := by
  induction fuel generalizing done c with
  | zero => exact absurd h nofun
  | succ fuel ih =>
    unfold itemsFrom at h
    dsimp only at h
    obtain ⟨g, hg, hrest⟩ := c.skipBlanks_spec
    generalize c.skipBlanks = c₁ at h hrest
    split at h
    · exact absurd h nofun
    · rename_i r hr
      obtain ⟨rfl, rfl⟩ := Prod.mk.inj (Except.ok.inj h)
      refine ⟨[], g, .nil hg, ?_, by simp⟩
      rw [hrest, Cursor.next_rest hr, hr]
    · rename_i r hr
      obtain ⟨g', hg', hrest'⟩ := c₁.next.skipBlanks_spec
      generalize c₁.next.skipBlanks = c₂ at h hrest'
      split at h
      · exact absurd h nofun
      · exact absurd h nofun
      · split at h
        · exact absurd h nofun
        · rename_i v c₃ hv
          obtain ⟨g'', d, s, hg'', hs, hread, rfl⟩ := hitem _ _ _ hv
          obtain ⟨ds, t, ht, hafter, rfl⟩ := ih h
          refine ⟨d :: ds, g ++ ',' :: ((g' ++ g'') ++ (s ++ t)),
            .cons hg (hg'.append hg'') hs ht, ?_, by simp⟩
          rw [hrest, hr, ← Cursor.next_rest hr, hrest', hread, hafter]
          simp only [List.append_assoc, List.cons_append]
    · exact absurd h nofun

/-- The items of an array are read. -/
theorem items_spec (hitem : Follows item) {vs : List Json} {c c' : Cursor}
    (h : items item c = .ok (vs, c')) :
    ∃ ds s, Listed Spells ds s ∧ c.rest = s ++ ']' :: c'.rest ∧
      vs = ds.map fun d => Document.read d := by
  unfold items at h
  dsimp only at h
  obtain ⟨g, hg, hrest⟩ := c.skipBlanks_spec
  generalize c.skipBlanks = c₁ at h hrest
  split at h
  · exact absurd h nofun
  · rename_i r hr
    obtain ⟨rfl, rfl⟩ := Prod.mk.inj (Except.ok.inj h)
    refine ⟨[], g, .nil hg, ?_, rfl⟩
    rw [hrest, Cursor.next_rest hr, hr]
  · split at h
    · exact absurd h nofun
    · rename_i v c₂ hv
      obtain ⟨g', d, s, hg', hs, hread, rfl⟩ := hitem _ _ _ hv
      obtain ⟨ds, t, ht, hafter, rfl⟩ := itemsFrom_spec hitem h
      refine ⟨d :: ds, (g ++ g') ++ (s ++ t), .cons (hg.append hg') hs ht, ?_, rfl⟩
      rw [hrest, hread, hafter]
      simp only [List.append_assoc]

/-- A member is read. -/
theorem member_spec (hitem : Follows item) {k : String} {v : Json} {c c' : Cursor} {r : List Char}
    (hc : c.rest = '"' :: r) (h : member item c = .ok ((k, v), c')) :
    ∃ d s, Member Spells (k, d) s ∧ c.rest = s ++ c'.rest ∧ v = Document.read d := by
  obtain ⟨⟨key, c₁⟩, hkey, h⟩ := bind_eq_ok.mp h
  obtain ⟨q, hq, hrest⟩ := string_spec hc hkey
  dsimp only at h
  obtain ⟨g, hg, hrest'⟩ := c₁.skipBlanks_spec
  generalize c₁.skipBlanks = c₂ at h hrest'
  split at h
  · exact absurd h nofun
  · rename_i r' hr
    obtain ⟨⟨w, c₃⟩, hw, h⟩ := bind_eq_ok.mp h
    obtain ⟨hpair, rfl⟩ := Prod.mk.inj (Except.ok.inj h)
    obtain ⟨rfl, rfl⟩ := Prod.mk.inj hpair
    obtain ⟨g', d, s, hg', hs, hread, rfl⟩ := hitem _ _ _ hw
    refine ⟨d, q ++ (g ++ ':' :: (g' ++ s)), .mk hq hg hg' hs, ?_, rfl⟩
    rw [hrest, hrest', hr, ← Cursor.next_rest hr, hread]
    simp only [List.append_assoc, List.cons_append]
  · exact absurd h nofun

/-- The members of an object behind the first one are read. -/
theorem membersFrom_spec (hitem : Follows item) {fuel : ℕ} {done vs : List (String × Json)}
    {c c' : Cursor} (h : membersFrom item fuel done c = .ok (vs, c')) :
    ∃ ms s, Following (Member Spells) ms s ∧ c.rest = s ++ '\x7d' :: c'.rest ∧
      vs = (ms.map fun m => (m.1, Document.read m.2)).foldl
        (fun done m => setMember m.1 m.2 done) done := by
  induction fuel generalizing done c with
  | zero => exact absurd h nofun
  | succ fuel ih =>
    unfold membersFrom at h
    dsimp only at h
    obtain ⟨g, hg, hrest⟩ := c.skipBlanks_spec
    generalize c.skipBlanks = c₁ at h hrest
    split at h
    · exact absurd h nofun
    · rename_i r hr
      obtain ⟨rfl, rfl⟩ := Prod.mk.inj (Except.ok.inj h)
      refine ⟨[], g, .nil hg, ?_, rfl⟩
      rw [hrest, Cursor.next_rest hr, hr]
    · rename_i r hr
      obtain ⟨g', hg', hrest'⟩ := c₁.next.skipBlanks_spec
      generalize c₁.next.skipBlanks = c₂ at h hrest'
      split at h
      · exact absurd h nofun
      · exact absurd h nofun
      · rename_i r' hr'
        split at h
        · exact absurd h nofun
        · rename_i k v c₃ hv
          obtain ⟨d, s, hs, hread, rfl⟩ := member_spec hitem hr' hv
          obtain ⟨ms, t, ht, hafter, rfl⟩ := ih h
          refine ⟨(k, d) :: ms, g ++ ',' :: (g' ++ (s ++ t)), .cons hg hg' hs ht, ?_, rfl⟩
          rw [hrest, hr, ← Cursor.next_rest hr, hrest', hread, hafter]
          simp only [List.append_assoc, List.cons_append]
      · exact absurd h nofun
    · exact absurd h nofun

/-- The members of an object are read. -/
theorem members_spec (hitem : Follows item) {vs : List (String × Json)} {c c' : Cursor}
    (h : members item c = .ok (vs, c')) :
    ∃ ms s, Listed (Member Spells) ms s ∧ c.rest = s ++ '\x7d' :: c'.rest ∧
      vs = gather (ms.map fun m => (m.1, Document.read m.2)) := by
  unfold members at h
  dsimp only at h
  obtain ⟨g, hg, hrest⟩ := c.skipBlanks_spec
  generalize c.skipBlanks = c₁ at h hrest
  split at h
  · exact absurd h nofun
  · rename_i r hr
    obtain ⟨rfl, rfl⟩ := Prod.mk.inj (Except.ok.inj h)
    refine ⟨[], g, .nil hg, ?_, rfl⟩
    rw [hrest, Cursor.next_rest hr, hr]
  · rename_i r hr
    split at h
    · exact absurd h nofun
    · rename_i k v c₂ hv
      obtain ⟨d, s, hs, hread, rfl⟩ := member_spec hitem hr hv
      obtain ⟨ms, t, ht, hafter, rfl⟩ := membersFrom_spec hitem h
      refine ⟨(k, d) :: ms, g ++ (s ++ t), .cons hg hs ht, ?_, rfl⟩
      rw [hrest, hread, hafter]
      simp only [List.append_assoc]
  · exact absurd h nofun

end

/-- The reader of values follows the grammar, however deep they may nest. -/
theorem follows_value (depth : ℕ) : Follows (value depth) := by
  induction depth using Nat.strong_induction_on with
  | _ depth ih =>
    intro c c' v h
    unfold value at h
    dsimp only at h
    obtain ⟨g, hg, hrest⟩ := c.skipBlanks_spec
    generalize c.skipBlanks = c₁ at h hrest
    split at h
    · exact absurd h nofun
    · exact absurd h nofun
    · rename_i r depth hr
      obtain ⟨⟨vs, c₂⟩, hvs, h⟩ := bind_eq_ok.mp h
      obtain ⟨rfl, rfl⟩ := Prod.mk.inj (Except.ok.inj h)
      obtain ⟨ds, s, hs, hread, rfl⟩ := items_spec (ih depth (Nat.lt_succ_self _)) hvs
      refine ⟨g, .arr ds, '[' :: (s ++ [']']), hg, .arr hs, ?_, by rw [Document.read]⟩
      rw [hrest, hr, ← Cursor.next_rest hr, hread]
      simp only [List.append_assoc, List.cons_append, List.nil_append]
    · rename_i r depth hr
      obtain ⟨⟨vs, c₂⟩, hvs, h⟩ := bind_eq_ok.mp h
      obtain ⟨rfl, rfl⟩ := Prod.mk.inj (Except.ok.inj h)
      obtain ⟨ms, s, hs, hread, rfl⟩ := members_spec (ih depth (Nat.lt_succ_self _)) hvs
      refine ⟨g, .obj ms, '\x7b' :: (s ++ ['\x7d']), hg, .obj hs, ?_, by rw [Document.read]⟩
      rw [hrest, hr, ← Cursor.next_rest hr, hread]
      simp only [List.append_assoc, List.cons_append, List.nil_append]
    · obtain ⟨d, s, hs, hread, rfl⟩ := scalar_spec h
      exact ⟨g, d, s, hg, hs, by rw [hrest, hread], rfl⟩

/-- A text that is read is one of a document, and the value is the one as which that is read. -/
theorem parse_spec {text : List Char} {v : Json} (h : parse text = .ok v) :
    ∃ d, Written d text ∧ v = Document.read d := by
  obtain ⟨⟨w, c⟩, hw, h⟩ := bind_eq_ok.mp h
  obtain ⟨g, d, s, hg, hs, hread, rfl⟩ := follows_value _ _ _ _ hw
  obtain ⟨g', hg', hrest⟩ := c.skipBlanks_spec
  dsimp only at h hread
  generalize c.skipBlanks = c₁ at h hrest
  split at h
  · rename_i hend
    obtain rfl := Except.ok.inj h
    rw [hend, List.append_nil] at hrest
    have htext : text = g ++ (s ++ g') := by
      rw [← hrest]
      exact hread
    rw [htext]
    exact ⟨d, .mk hg hs hg', rfl⟩
  · exact absurd h nofun

end CodeTidy.Json
