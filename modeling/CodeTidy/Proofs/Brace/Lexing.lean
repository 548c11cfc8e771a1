import CodeTidy.Brace.Lexeme
import CodeTidy.Proofs.Text.Letter
import CodeTidy.Proofs.Text.Strip

/-!
# What a lexeme looks like

A lexeme takes at least one character, and its kind tells what the characters are, as far as the
layout relies on it. A literal that ends in the quote that opened it is whole, as is a regular
expression. A literal that is not whole goes to the end of its line or of the text.
-/

namespace CodeTidy.Brace

/-- A literal ends in the quote that opened it. -/
def Lexeme.Closed (x : Lexeme) : Prop := ∃ q inner, x.raw = q :: (inner ++ [q])

/-- A literal is still open where its line or the text ends. -/
def Lexeme.Open (x : Lexeme) : Prop := x.rest = [] ∨ x.rest.head? = some '\n'

/-- A lexeme that must stay in one piece: a regular expression, or a literal that is closed. -/
def Lexeme.Whole (x : Lexeme) : Prop := x.kind = .regex ∨ x.kind = .literal ∧ x.Closed

/-- The characters of a lexeme are those of its kind. -/
def Lexeme.Fits (mode : Mode) (x : Lexeme) : Prop :=
  match x.kind with
  | .lineBreak => x.raw = ['\n']
  | .regex => Text.Solid x.raw
  | .literal => (∃ q ∈ ['"', '\'', '\x60'], ∃ body, x.raw = q :: body) ∧ (x.Closed ∨ x.Open)
  | .closer _ => ∃ c ws, x.raw = c :: ws ∧ Text.allBlank ws = true ∧
    (c = '\x7d' ∨ c = ']' ∧ mode = .data)
  | .semicolon _ => x.raw = [';']
  | .comma => x.raw = [',']
  | .colon => ∃ ws, x.raw = ':' :: ws ∧ Text.allBlank ws = true
  | .blank => Text.allBlank x.raw = true
  | _ => True

/-! ## Scanning -/

/-- A string ends behind its closing quote, or it is open at the end of its line or of the text. -/
theorem stringEnd_spec (q : Char) (n : ℕ) (s : List Char) :
    (∃ inner rest, s = inner ++ q :: rest ∧ stringEnd q n s = n + (inner.length + 1)) ∨
      ∃ body rest, s = body ++ rest ∧ stringEnd q n s = n + body.length ∧
        (rest = [] ∨ rest.head? = some '\n') := by
  -- The cases are those of the scan, where a backslash takes the next character with it.
  induction n, s using stringEnd.induct q with
  | case1 n => exact .inr ⟨[], [], rfl, rfl, .inl rfl⟩
  | case2 n => exact .inr ⟨['\\'], [], rfl, rfl, .inl rfl⟩
  | case3 n c s ih =>
    rw [stringEnd]
    rcases ih with ⟨inner, rest, rfl, hend⟩ | ⟨body, rest, rfl, hend, hopen⟩
    · refine .inl ⟨'\\' :: c :: inner, rest, rfl, ?_⟩
      rw [hend, List.length_cons, List.length_cons]
      omega
    · refine .inr ⟨'\\' :: c :: body, rest, rfl, ?_, hopen⟩
      rw [hend, List.length_cons, List.length_cons]
      omega
  | case4 n c s hnone hescape hc =>
    obtain rfl : c = q := by simpa using hc
    refine .inl ⟨[], s, rfl, ?_⟩
    rw [stringEnd.eq_4 _ _ _ _ hnone hescape, if_pos hc]
    rfl
  | case5 n c s hnone hescape hc hline =>
    refine .inr ⟨[], c :: s, rfl, ?_, .inr ?_⟩
    · rw [stringEnd.eq_4 _ _ _ _ hnone hescape, if_neg hc, if_pos hline]
      rfl
    · rw [Bool.and_eq_true, beq_iff_eq] at hline
      rw [List.head?_cons, hline.1]
  | case6 n c s hnone hescape hc hline ih =>
    rw [stringEnd.eq_4 _ _ _ _ hnone hescape, if_neg hc, if_neg hline]
    rcases ih with ⟨inner, rest, rfl, hend⟩ | ⟨body, rest, rfl, hend, hopen⟩
    · refine .inl ⟨c :: inner, rest, rfl, ?_⟩
      rw [hend, List.length_cons]
      omega
    · refine .inr ⟨c :: body, rest, rfl, ?_, hopen⟩
      rw [hend, List.length_cons]
      omega

/-- A regular expression takes characters of the text, and the last of them is no white space. -/
theorem regexEnd?_spec {inClass : Bool} {n m : ℕ} {s : List Char}
    (h : regexEnd? inClass n s = some m) :
    ∃ body rest, s = body ++ rest ∧ m = n + body.length ∧ body ≠ [] ∧
      ∀ c, body.getLast? = some c → Text.isBlank c = false := by
  -- One character more in front leaves the last one as it is.
  have hextend : ∀ {c : Char} {s : List Char} {m n : ℕ},
      (∃ body rest, s = body ++ rest ∧ m = n + 1 + body.length ∧ body ≠ [] ∧
        ∀ c, body.getLast? = some c → Text.isBlank c = false) →
      ∃ body rest, c :: s = body ++ rest ∧ m = n + body.length ∧ body ≠ [] ∧
        ∀ c, body.getLast? = some c → Text.isBlank c = false := by
    rintro c s m n ⟨body, rest, rfl, rfl, hne, hlast⟩
    refine ⟨c :: body, rest, rfl, ?_, by simp, ?_⟩
    · rw [List.length_cons]
      omega
    · rwa [List.getLast?_cons_of_ne_nil hne]
  induction inClass, n, s using regexEnd?.induct with
  | case1 => simp [regexEnd?] at h
  | case2 => simp [regexEnd?] at h
  | case3 inClass n c s ih =>
    rw [regexEnd?] at h
    exact hextend (hextend (ih h))
  | case4 inClass n c s hnone hescape hline =>
    rw [regexEnd?.eq_4 _ _ _ _ hnone hescape, if_pos hline] at h
    simp at h
  | case5 inClass n c s hnone hescape hline hopen ih =>
    rw [regexEnd?.eq_4 _ _ _ _ hnone hescape, if_neg hline, if_pos hopen] at h
    exact hextend (ih h)
  | case6 inClass n c s hnone hescape hline hopen hclose ih =>
    rw [regexEnd?.eq_4 _ _ _ _ hnone hescape, if_neg hline, if_neg hopen, if_pos hclose] at h
    exact hextend (ih h)
  | case7 inClass n c s hnone hescape hline hopen hclose hslash =>
    rw [regexEnd?.eq_4 _ _ _ _ hnone hescape, if_neg hline, if_neg hopen, if_neg hclose,
      if_pos hslash, Option.some.injEq] at h
    obtain rfl : c = '/' := by
      rw [Bool.and_eq_true, beq_iff_eq] at hslash
      exact hslash.1
    refine ⟨'/' :: s.takeWhile Text.isAsciiLetter, s.dropWhile Text.isAsciiLetter, ?_, ?_,
      by simp, ?_⟩
    · rw [List.cons_append, List.takeWhile_append_dropWhile]
    · rw [← h, List.length_cons]
      omega
    · -- The last character is the slash or a letter.
      intro d hd
      rcases List.mem_cons.mp (List.mem_of_getLast? hd) with rfl | hmem
      · decide
      · have hletter := List.mem_takeWhile_imp hmem
        by_contra hblank
        have hnot := Text.isAsciiAlphanumeric_of_blank (by simpa using hblank)
        simp [Text.isAsciiAlphanumeric, hletter] at hnot
  | case8 inClass n c s hnone hescape hline hopen hclose hslash ih =>
    rw [regexEnd?.eq_4 _ _ _ _ hnone hescape, if_neg hline, if_neg hopen, if_neg hclose,
      if_neg hslash] at h
    exact hextend (ih h)

/-- A block comment takes its opening mark at least. -/
theorem le_blockCommentEnd (n : ℕ) (s : List Char) : n ≤ blockCommentEnd n s := by
  induction n, s using blockCommentEnd.induct with
  | case1 n => exact Nat.le.refl
  | case2 n s =>
    rw [blockCommentEnd]
    omega
  | case3 n c s hopen ih =>
    rw [blockCommentEnd.eq_3 _ _ _ hopen]
    omega

/-- The white space at the start of a text is what its length takes. -/
theorem take_blankLength (s : List Char) :
    s.take (blankLength s) = s.takeWhile Text.isBlank := by
  unfold blankLength
  exact (List.prefix_iff_eq_take.mp (List.takeWhile_prefix Text.isBlank)).symm

/-- A character and the white space behind it. -/
theorem exists_take_blankLength (c : Char) (s : List Char) :
    ∃ ws, (c :: s).take (1 + blankLength s) = c :: ws ∧ Text.allBlank ws = true := by
  refine ⟨s.takeWhile Text.isBlank, ?_, Text.allBlank_iff.mpr fun d hd => List.mem_takeWhile_imp hd⟩
  rw [Nat.add_comm, List.take_succ_cons, take_blankLength]

/-! ## Lexemes -/

/-- A lexeme and what is left behind it make up the text. -/
theorem next_append (mode : Mode) (line : List Char) (c : Char) (rest : List Char) :
    (Lexeme.next mode line c rest).raw ++ (Lexeme.next mode line c rest).rest = c :: rest :=
  List.take_append_drop _ _

/-- A kind and a length belong to a lexeme at the start of a text: it takes at least one character,
and its characters are those of its kind. -/
def Measured (mode : Mode) (text : List Char) (m : Kind × ℕ) : Prop :=
  0 < m.2 ∧ (Lexeme.cut m.1 m.2 text).Fits mode

/-- A regular expression is solid. -/
theorem measured_regex {mode : Mode} {rest : List Char} {n : ℕ}
    (h : regexEnd? false 1 rest = some n) : Measured mode ('/' :: rest) (.regex, n) := by
  obtain ⟨body, rest', rfl, rfl, hne, hlast⟩ := regexEnd?_spec h
  refine ⟨by omega, ?_⟩
  have hraw : ('/' :: (body ++ rest')).take (1 + body.length) = '/' :: body := by
    rw [Nat.add_comm, List.take_succ_cons, List.take_left]
  show Text.Solid (('/' :: (body ++ rest')).take (1 + body.length))
  rw [hraw]
  refine ⟨by simp, ?_, ?_⟩
  · intro c hc
    obtain rfl := Option.some.inj hc
    decide
  · rwa [List.getLast?_cons_of_ne_nil hne]

/-- A literal starts with its quote, and ends in it or is open. -/
theorem measured_literal {mode : Mode} {q : Char} {rest : List Char}
    (hq : q ∈ ['"', '\'', '\x60']) : Measured mode (q :: rest) (.literal, stringEnd q 1 rest) := by
  rcases stringEnd_spec q 1 rest with ⟨inner, rest', rfl, hend⟩ | ⟨body, rest', rfl, hend, hopen⟩
  · have hraw : (q :: (inner ++ q :: rest')).take (1 + (inner.length + 1)) =
        q :: (inner ++ [q]) := by
      have hlen : inner.length + 1 = (inner ++ [q]).length := by simp
      rw [Nat.add_comm, List.take_succ_cons, List.append_cons, hlen, List.take_left]
    rw [hend]
    exact ⟨by omega, ⟨q, hq, _, hraw⟩, .inl ⟨q, inner, hraw⟩⟩
  · have hraw : (q :: (body ++ rest')).take (1 + body.length) = q :: body := by
      rw [Nat.add_comm, List.take_succ_cons, List.take_left]
    have hrest : (q :: (body ++ rest')).drop (1 + body.length) = rest' := by
      rw [Nat.add_comm, List.drop_succ_cons, List.drop_left]
    rw [hend]
    refine ⟨by omega, ⟨q, hq, body, hraw⟩, .inr ?_⟩
    show (q :: (body ++ rest')).drop (1 + body.length) = [] ∨
      ((q :: (body ++ rest')).drop (1 + body.length)).head? = some '\n'
    rwa [hrest]

/-- What is measured at the start of a text is a lexeme. -/
theorem measure_measured (mode : Mode) (line : List Char) (c : Char) (rest : List Char) :
    Measured mode (c :: rest) (measure mode line c rest) := by
  unfold measure
  dsimp only
  split
  · rename_i n hn
    obtain ⟨hslashed, hend⟩ := Option.ite_none_right_eq_some.mp hn
    simp only [Bool.and_eq_true, beq_iff_eq] at hslashed
    obtain rfl : c = '/' := hslashed.1.1.1
    exact measured_regex hend
  · -- One test on the first character after the other, as the scan makes them.
    refine iteInduction (fun hline => ?_) fun _ => ?_
    · obtain rfl : c = '\n' := by simpa using hline
      exact ⟨Nat.one_pos, rfl⟩
    refine iteInduction (fun hquote => ?_) fun _ => ?_
    · refine measured_literal ?_
      simp only [Bool.or_eq_true, Bool.and_eq_true, beq_iff_eq] at hquote
      rcases hquote with (rfl | rfl) | ⟨rfl, -⟩ <;> simp
    refine iteInduction (fun hlineComment => ?_) fun _ => ?_
    · exact ⟨by omega, trivial⟩
    refine iteInduction (fun hblockComment => ?_) fun _ => ?_
    · refine ⟨?_, trivial⟩
      have hle := le_blockCommentEnd 2 (rest.drop 1)
      show 0 < blockCommentEnd 2 (rest.drop 1)
      omega
    refine iteInduction (fun hopen => ?_) fun _ => ?_
    · refine iteInduction (fun hpair => ?_) fun _ => ?_
      · exact ⟨by omega, trivial⟩
      · exact ⟨Nat.one_pos, trivial⟩
    refine iteInduction (fun hclose => ?_) fun _ => ?_
    · have hc : c = '\x7d' ∨ c = ']' ∧ mode = .data := by simpa using hclose
      rcases Bool.eq_false_or_eq_true (followOf rest == .word) with hword | hword
      · obtain ⟨ws, hraw, hws⟩ := exists_take_blankLength c rest
        rw [if_pos hword]
        exact ⟨by show 0 < 1 + blankLength rest; omega, c, ws, hraw, hws, hc⟩
      · rw [hword, if_neg Bool.false_ne_true]
        exact ⟨Nat.one_pos, c, [], rfl, rfl, hc⟩
    refine iteInduction (fun hparen => ?_) fun _ => ?_
    · exact ⟨Nat.one_pos, trivial⟩
    refine iteInduction (fun hparen => ?_) fun _ => ?_
    · exact ⟨Nat.one_pos, trivial⟩
    refine iteInduction (fun hsemicolon => ?_) fun _ => ?_
    · obtain rfl : c = ';' := by simpa using hsemicolon
      exact ⟨Nat.one_pos, rfl⟩
    refine iteInduction (fun hcomma => ?_) fun _ => ?_
    · obtain rfl : c = ',' := by simpa using hcomma
      exact ⟨Nat.one_pos, rfl⟩
    refine iteInduction (fun hcolon => ?_) fun _ => ?_
    · simp only [Bool.and_eq_true, beq_iff_eq] at hcolon
      obtain rfl : c = ':' := hcolon.1
      obtain ⟨ws, hraw, hws⟩ := exists_take_blankLength ':' rest
      exact ⟨by omega, ws, hraw, hws⟩
    refine iteInduction (fun hblank => ?_) fun _ => ?_
    · exact ⟨Nat.one_pos, by simpa [Lexeme.Fits, Lexeme.cut, Text.allBlank] using hblank⟩
    · exact ⟨Nat.one_pos, trivial⟩

/-- The characters of the next lexeme are those of its kind. -/
theorem next_fits (mode : Mode) (line : List Char) (c : Char) (rest : List Char) :
    (Lexeme.next mode line c rest).Fits mode := (measure_measured mode line c rest).2

/-- The next lexeme takes at least one character. -/
theorem next_raw_ne_nil (mode : Mode) (line : List Char) (c : Char) (rest : List Char) :
    (Lexeme.next mode line c rest).raw ≠ [] := by
  have hpos := (measure_measured mode line c rest).1
  show (c :: rest).take (measure mode line c rest).2 ≠ []
  intro hnil
  rcases List.take_eq_nil_iff.mp hnil with hzero | hnone
  · omega
  · simp at hnone

/-- A literal that is not whole goes to the end of its line or of the text. -/
theorem Lexeme.Fits.whole_or_open {mode : Mode} {x : Lexeme} (h : x.Fits mode)
    (hkind : x.kind = .literal) : x.Whole ∨ x.Open := by
  unfold Lexeme.Fits at h
  rw [hkind] at h
  exact h.2.imp (fun hclosed => .inr ⟨hkind, hclosed⟩) id

end CodeTidy.Brace
