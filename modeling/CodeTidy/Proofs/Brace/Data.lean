import CodeTidy.Brace.Layout
import CodeTidy.Proofs.Brace.Lexing
import CodeTidy.Proofs.Json.Printing

/-!
# The layout of data, lexeme by lexeme

What the layout of data does to a state for each kind of lexeme that a JSON text has. Strings, words
and numbers go on the line, opening brackets and commas end it, and a closing bracket starts one.
White space is a blank on a line that is not empty, and nothing at all otherwise.
-/

namespace CodeTidy.Brace

variable {cfg : Config}

/-! ## Lexeme by lexeme -/

/-- The layout of a text from a state on. -/
def State.lay (cfg : Config) (st : State) (text : List Char) : State :=
  State.run cfg text.length st text

/-- More fuel than characters makes no difference. -/
theorem run_eq_lay {fuel : ℕ} {text : List Char} (h : text.length ≤ fuel) (st : State) :
    State.run cfg fuel st text = st.lay cfg text := by
  -- A lexeme takes at least one character, so the fuel that is left is enough again.
  have hfuel : ∀ {fuel fuel' : ℕ} {text : List Char} {st : State}, text.length ≤ fuel →
      text.length ≤ fuel' → State.run cfg fuel st text = State.run cfg fuel' st text := by
    intro fuel
    induction fuel with
    | zero =>
      intro fuel' text st h h'
      obtain rfl := List.length_eq_zero_iff.mp (Nat.le_zero.mp h)
      cases fuel' <;> rfl
    | succ fuel ih =>
      intro fuel' text st h h'
      cases text with
      | nil => cases fuel' <;> rfl
      | cons c rest =>
        obtain ⟨fuel', rfl⟩ := Nat.exists_eq_add_of_lt (Nat.lt_of_lt_of_le (Nat.succ_pos _) h')
        have happend := congrArg List.length (next_append cfg.mode st.line c rest)
        have hpos := List.length_pos_iff.mpr (next_raw_ne_nil cfg.mode st.line c rest)
        rw [List.length_append, List.length_cons] at happend
        rw [List.length_cons] at h h'
        rw [Nat.zero_add]
        unfold State.run
        exact ih (by omega) (by omega)
  exact hfuel h (Nat.le_refl _)

/-- The lexeme at the start of a text is laid out first. -/
theorem lay_lexeme {st : State} {c : Char} {rest raw rest' : List Char} {kind : Kind}
    (htext : c :: rest = raw ++ rest')
    (h : measure cfg.mode st.line c rest = (kind, raw.length)) :
    st.lay cfg (c :: rest) = (st.step cfg ⟨kind, raw, rest'⟩).lay cfg rest' := by
  have hnext : Lexeme.next cfg.mode st.line c rest = ⟨kind, raw, rest'⟩ := by
    unfold Lexeme.next Lexeme.cut
    rw [h, htext]
    dsimp only
    rw [List.take_left, List.drop_left]
  have hlength := congrArg List.length (next_append cfg.mode st.line c rest)
  have hpos := List.length_pos_iff.mpr (next_raw_ne_nil cfg.mode st.line c rest)
  rw [hnext] at hlength hpos
  rw [List.length_append, List.length_cons] at hlength
  show State.run cfg (rest.length + 1) st (c :: rest) = _
  unfold State.run
  rw [hnext]
  exact run_eq_lay (by dsimp only at hlength hpos ⊢; omega) _

/-- A lexeme of one character is laid out first. -/
theorem lay_char {st : State} {c : Char} {rest : List Char} {kind : Kind}
    (h : measure cfg.mode st.line c rest = (kind, 1)) :
    st.lay cfg (c :: rest) = (st.step cfg ⟨kind, [c], rest⟩).lay cfg rest := by
  have hraw : c :: rest = [c] ++ rest := rfl
  exact lay_lexeme hraw h

/-! ## States of the layout of data -/

/-- The state inside `n` containers, with the current line reversed and the breaks since. -/
def State.inside (n : ℕ) (done : List (List Char)) (line : List Char) (breaks : ℕ) : State where
  done := done
  line := line
  depth := n
  frames := List.replicate n ⟨.literal, 0⟩
  breaks := breaks

/-- The white space in front of a line inside `n` containers. -/
def indent (u : List Char) (n : ℕ) : List Char := (List.replicate n u).flatten

/-- Finishing a line that is not empty indents what is on it without the white space at its ends. -/
theorem flush_inside {u : List Char} {n : ℕ} {done : List (List Char)} {line : List Char}
    (h : Text.trim line.reverse ≠ []) (breaks : ℕ) :
    (State.inside n done line breaks).flush u =
      State.inside n ((indent u n ++ Text.trim line.reverse) :: done) [] breaks := by
  unfold State.flush
  dsimp only [State.inside]
  rw [if_neg (by simpa [List.isEmpty_iff] using h)]
  rfl

/-- Finishing an empty line does nothing. -/
theorem flush_inside_nil (u : List Char) (n : ℕ) (done : List (List Char)) (breaks : ℕ) :
    (State.inside n done [] breaks).flush u = State.inside n done [] breaks := rfl

/-- A line with a blank at its end, unless it is empty. -/
def withBlank : List Char → List Char
  | [] => []
  | ' ' :: line => ' ' :: line
  | c :: line => ' ' :: c :: line

/-- A second blank is not added. -/
theorem withBlank_withBlank (line : List Char) : withBlank (withBlank line) = withBlank line := by
  fun_cases withBlank line with
  | case1 => rfl
  | case2 line => rfl
  | case3 c line hc => rfl

/-- A blank goes behind what is on the line. -/
theorem space_eq (st : State) : st.space = { st with line := withBlank st.line } := by
  obtain ⟨done, line, depth, blankPending, frames, parens, breaks⟩ := st
  fun_cases withBlank line with
  | case1 => rfl
  | case2 line => rfl
  | case3 c line hc =>
    unfold State.space
    split
    · rename_i hnil
      exact absurd hnil (List.cons_ne_nil c line)
    · rename_i r hr
      exact absurd (List.cons.inj hr).1 hc
    · rfl

/-- So it does inside containers. -/
theorem space_inside (n : ℕ) (done : List (List Char)) (line : List Char) (breaks : ℕ) :
    (State.inside n done line breaks).space = State.inside n done (withBlank line) breaks :=
  space_eq _

/-- A blank at its end makes no difference when a line is trimmed. -/
theorem trim_withBlank (line : List Char) :
    Text.trim (withBlank line).reverse = Text.trim line.reverse := by
  fun_cases withBlank line with
  | case1 => rfl
  | case2 line => rfl
  | case3 c line hc =>
    rw [List.reverse_cons]
    exact Text.trim_append_blank (by decide)

/-! ## Characters -/

/-- A character of a word or of a number. -/
def isWordChar (c : Char) : Bool := Text.isAsciiAlphanumeric c || ['-', '+', '.'].contains c

/-- Such a character is no white space. -/
theorem isBlank_of_wordChar {c : Char} (h : isWordChar c = true) : Text.isBlank c = false := by
  by_contra hblank
  rw [Bool.not_eq_false] at hblank
  have hsign : c ∉ ['-', '+', '.'] := Text.not_mem_of_blank hblank (by decide)
  rw [isWordChar, Text.isAsciiAlphanumeric_of_blank hblank, Bool.false_or,
    List.contains_iff_mem] at h
  exact hsign h

/-- Such a character is a lexeme of its own, which nothing is known of. -/
theorem measure_wordChar {c : Char} (h : isWordChar c = true) (line rest : List Char) :
    measure .data line c rest = (.other, 1) := by
  have hne : ∀ d : Char, isWordChar d = false → (c == d) = false := by
    intro d hd
    rw [beq_eq_false_iff_ne]
    rintro rfl
    rw [h] at hd
    exact Bool.noConfusion hd
  unfold measure
  simp [hne '\n' (by decide), hne '"' (by decide), hne '\'' (by decide), hne '\x60' (by decide),
    hne '/' (by decide), hne '\x7b' (by decide), hne '[' (by decide), hne '\x7d' (by decide),
    hne ']' (by decide), hne '(' (by decide), hne ')' (by decide), hne ';' (by decide),
    hne ',' (by decide), hne ':' (by decide), isBlank_of_wordChar h]

/-- A character that is no quote, no backslash and no line break is passed over. -/
theorem stringEnd_plain {c : Char} (hquote : c ≠ '"') (hslash : c ≠ '\\') (hline : c ≠ '\n') (n : ℕ)
    (s : List Char) : stringEnd '"' n (c :: s) = stringEnd '"' (n + 1) s := by
  rw [stringEnd.eq_4 _ _ _ _ (fun h => absurd h hslash) (fun _ _ h => absurd h hslash),
    if_neg (by simpa using hquote), if_neg (by simp [hline])]

/-- What a character inside a string is written as is passed over. -/
theorem stringEnd_stringChar (c : Char) (n : ℕ) (s : List Char) :
    stringEnd '"' n (Json.stringChar c ++ s) =
      stringEnd '"' (n + (Json.stringChar c).length) s := by
  unfold Json.stringChar
  simp only [beq_iff_eq]
  split_ifs with hquote hslash hline hreturn htab hback hfeed hcontrol
  · rw [List.cons_append, List.singleton_append, stringEnd]; rfl
  · rw [List.cons_append, List.singleton_append, stringEnd]; rfl
  · rw [List.cons_append, List.singleton_append, stringEnd]; rfl
  · rw [List.cons_append, List.singleton_append, stringEnd]; rfl
  · rw [List.cons_append, List.singleton_append, stringEnd]; rfl
  · rw [List.cons_append, List.singleton_append, stringEnd]; rfl
  · rw [List.cons_append, List.singleton_append, stringEnd]; rfl
  · -- The four digits behind the letter are passed over one by one.
    have hdigit : ∀ k, k < 16 →
        Nat.digitChar k ≠ '"' ∧ Nat.digitChar k ≠ '\\' ∧ Nat.digitChar k ≠ '\n' := by decide
    obtain ⟨hq, hs, hl⟩ := hdigit (c.toNat / 16) (by omega)
    obtain ⟨hq', hs', hl'⟩ := hdigit (c.toNat % 16) (by omega)
    unfold Json.hexPair
    simp only [List.cons_append, List.nil_append, List.length_cons, List.length_nil]
    rw [stringEnd, stringEnd_plain (by decide) (by decide) (by decide),
      stringEnd_plain (by decide) (by decide) (by decide), stringEnd_plain hq hs hl,
      stringEnd_plain hq' hs' hl']
  · rw [List.singleton_append, stringEnd_plain hquote hslash hline]
    rfl

/-- The characters of a string are passed over up to its closing quote. -/
theorem stringEnd_stringChars (cs : List Char) (n : ℕ) (rest : List Char) :
    stringEnd '"' n (cs.flatMap Json.stringChar ++ '"' :: rest) =
      n + (cs.flatMap Json.stringChar).length + 1 := by
  induction cs generalizing n with
  | nil =>
    have hquote : stringEnd '"' n ('"' :: rest) = n + 1 := by
      rw [stringEnd.eq_4 _ _ _ _ (fun h => absurd h (by decide))
        (fun _ _ h => absurd h (by decide)), if_pos (by decide)]
    exact hquote
  | cons c cs ih =>
    rw [List.flatMap_cons, List.append_assoc, stringEnd_stringChar, ih, List.length_append]
    omega

/-- Brackets of data that belong together. -/
def IsPair (o c : Char) : Prop := o = '[' ∧ c = ']' ∨ o = '\x7b' ∧ c = '\x7d'

/-- They are no white space, and the second one closes. -/
theorem IsPair.spec {o c : Char} (h : IsPair o c) :
    Text.isBlank o = false ∧ Text.isBlank c = false ∧ Json.IsCloser c := by
  rcases h with ⟨rfl, rfl⟩ | ⟨rfl, rfl⟩
  · exact ⟨by decide, by decide, .inl rfl⟩
  · exact ⟨by decide, by decide, .inr rfl⟩

/-- Neither a comma nor a closing bracket is a word. -/
theorem followOf_comma (rest : List Char) : followOf (',' :: rest) = .mark := rfl

/-- White space makes no difference to what follows a bracket. -/
theorem followOf_closer {o c : Char} (h : IsPair o c) {gap : List Char}
    (hgap : Text.allBlank gap = true) (rest : List Char) : followOf (gap ++ c :: rest) ≠ .word := by
  have hc := h.spec.2.1
  have hdrop : (gap ++ c :: rest).dropWhile Text.isBlank = c :: rest := by
    rw [List.dropWhile_append_of_pos (Text.allBlank_iff.mp hgap),
      List.dropWhile_cons_of_neg (by simp [hc])]
  unfold followOf
  rw [hdrop]
  rcases h with ⟨-, rfl⟩ | ⟨-, rfl⟩
  · exact nofun
  · have htake : ('\x7d' :: rest).takeWhile Text.isAsciiLetter = [] := rfl
    dsimp only
    rw [htake]
    decide

section
variable (hdata : cfg.mode = .data)
include hdata

/-- A line break in data is a blank. -/
theorem lay_lineBreak (n : ℕ) (done : List (List Char)) (line rest : List Char) :
    (State.inside n done line 0).lay cfg ('\n' :: rest) =
      (State.inside n done (withBlank line) 1).lay cfg rest := by
  have hmeasure : measure cfg.mode line '\n' rest = (.lineBreak, 1) := by
    rw [hdata]
    rfl
  have hstep : (State.inside n done line 0).step cfg ⟨.lineBreak, ['\n'], rest⟩ =
      (State.inside n done line 1).space := by
    unfold State.step State.lineBreak
    rw [hdata]
    rfl
  rw [lay_char hmeasure, hstep, space_inside]

/-- Other white space of JSON is a blank. -/
theorem lay_blank {c : Char} (hc : Json.isSpace c = true) (hline : c ≠ '\n') (n : ℕ)
    (done : List (List Char)) (line rest : List Char) (breaks : ℕ) :
    (State.inside n done line breaks).lay cfg (c :: rest) =
      (State.inside n done (withBlank line) breaks).lay cfg rest := by
  simp only [Json.isSpace, Bool.or_eq_true, beq_iff_eq] at hc
  have hmeasure : measure cfg.mode line c rest = (.blank, 1) := by
    rw [hdata]
    rcases hc with ((rfl | rfl) | rfl) | rfl
    · rfl
    · exact absurd rfl hline
    · rfl
    · rfl
  have hblank : [c].all Text.isBlank = true := by
    rcases hc with ((rfl | rfl) | rfl) | rfl <;> decide
  have hstep : (State.inside n done line breaks).step cfg ⟨.blank, [c], rest⟩ =
      (State.inside n done line breaks).space := by
    unfold State.step
    dsimp only
    rw [if_pos hblank]
  rw [lay_char hmeasure, hstep, space_inside]

/-- White space between lexemes is one blank on the line, or nothing at all. -/
theorem lay_gap {gap : List Char} {breaks : ℕ} (hgap : Json.Spaces gap)
    (hbreaks : breaks + gap.count '\n' ≤ 1) (n : ℕ) (done : List (List Char))
    (line rest : List Char) :
    ∃ line' breaks', (line' = line ∨ line' = withBlank line) ∧
      (State.inside n done line breaks).lay cfg (gap ++ rest) =
        (State.inside n done line' breaks').lay cfg rest := by
  induction gap generalizing line breaks with
  | nil => exact ⟨line, breaks, .inl rfl, rfl⟩
  | cons c gap ih =>
    rw [Json.Spaces, List.forall_mem_cons] at hgap
    -- The first character puts the blank on the line, and the others find it there. A second line
    -- break never comes, as it would ask for an empty line.
    obtain ⟨breaks', hbreaks', hlay⟩ : ∃ breaks', breaks' + gap.count '\n' ≤ 1 ∧
        (State.inside n done line breaks).lay cfg (c :: (gap ++ rest)) =
          (State.inside n done (withBlank line) breaks').lay cfg (gap ++ rest) := by
      by_cases hline : c = '\n'
      · subst hline
        rw [List.count_cons_self] at hbreaks
        obtain rfl : breaks = 0 := by omega
        exact ⟨1, by omega, lay_lineBreak hdata n done line _⟩
      · rw [List.count_cons_of_ne hline] at hbreaks
        exact ⟨breaks, hbreaks, lay_blank hdata hgap.1 hline n done line _ breaks⟩
    obtain ⟨line', breaks'', hline', hrest⟩ := ih hgap.2 hbreaks' (withBlank line)
    rw [withBlank_withBlank, or_self] at hline'
    exact ⟨line', breaks'', .inr hline', by rw [List.cons_append, hlay, hrest]⟩

/-- Characters of words and numbers go on the line as they are. -/
theorem lay_word {word : List Char} (hne : word ≠ []) (hword : ∀ c ∈ word, isWordChar c = true)
    (n : ℕ) (done : List (List Char)) (line rest : List Char) (breaks : ℕ) :
    (State.inside n done line breaks).lay cfg (word ++ rest) =
      (State.inside n done (word.reverse ++ line) 0).lay cfg rest := by
  -- A word is no lexeme: each of its characters is one.
  have hchar : ∀ {c : Char} (line rest : List Char) (breaks : ℕ), isWordChar c = true →
      (State.inside n done line breaks).lay cfg (c :: rest) =
        (State.inside n done (c :: line) 0).lay cfg rest := by
    intro c line rest breaks hc
    have hmeasure : measure cfg.mode line c rest = (.other, 1) := by
      rw [hdata]
      exact measure_wordChar hc line rest
    have hsolid : ¬[c].all Text.isBlank = true := by
      simp [isBlank_of_wordChar hc]
    have hstep : (State.inside n done line breaks).step cfg ⟨.other, [c], rest⟩ =
        State.inside n done (c :: line) 0 := by
      unfold State.step
      dsimp only
      rw [if_neg hsolid]
      rfl
    rw [lay_char hmeasure, hstep]
  induction word generalizing line breaks with
  | nil => exact absurd rfl hne
  | cons c word ih =>
    rw [List.forall_mem_cons] at hword
    rw [List.cons_append, hchar line _ breaks hword.1, List.reverse_cons, List.append_assoc]
    cases word with
    | nil => rfl
    | cons d word => exact ih (List.cons_ne_nil d word) hword.2 (c :: line) 0

/-- A string goes on the line as it is. -/
theorem lay_string (x : String) (n : ℕ) (done : List (List Char)) (line rest : List Char)
    (breaks : ℕ) :
    (State.inside n done line breaks).lay cfg (Json.stringText x ++ rest) =
      (State.inside n done ((Json.stringText x).reverse ++ line) 0).lay cfg rest := by
  have hmeasure : measure cfg.mode line '"' (x.toList.flatMap Json.stringChar ++ '"' :: rest) =
      (.literal, (Json.stringText x).length) := by
    rw [hdata]
    have hend := stringEnd_stringChars x.toList 1 rest
    show (Kind.literal, stringEnd '"' 1 (x.toList.flatMap Json.stringChar ++ '"' :: rest)) = _
    rw [hend]
    unfold Json.stringText
    rw [List.length_append, List.length_cons, List.length_singleton]
    congr 1
    omega
  have hsolid : ¬(Json.stringText x).all Text.isBlank = true := by
    unfold Json.stringText
    rw [List.cons_append, List.all_cons]
    have hquote : Text.isBlank '"' = false := by decide
    rw [hquote, Bool.false_and]
    exact Bool.false_ne_true
  have hstep : (State.inside n done line breaks).step cfg ⟨.literal, Json.stringText x, rest⟩ =
      State.inside n done ((Json.stringText x).reverse ++ line) 0 := by
    unfold State.step
    dsimp only
    rw [if_neg hsolid, hdata]
    rfl
  have htext : Json.stringText x ++ rest =
      '"' :: (x.toList.flatMap Json.stringChar ++ '"' :: rest) := by
    unfold Json.stringText
    simp only [List.cons_append, List.append_assoc, List.nil_append]
  rw [htext, lay_lexeme htext.symm hmeasure, hstep]

/-- A colon goes on the line with one blank behind it. -/
theorem lay_colon {gap : List Char} {c : Char} (hgap : Text.allBlank gap = true)
    (hc : Text.isBlank c = false) (n : ℕ) (done : List (List Char)) (line rest : List Char)
    (breaks : ℕ) :
    (State.inside n done line breaks).lay cfg (':' :: (gap ++ c :: rest)) =
      (State.inside n done (' ' :: ':' :: line) 0).lay cfg (c :: rest) := by
  have hlength : blankLength (gap ++ c :: rest) = gap.length := by
    unfold blankLength
    rw [List.takeWhile_append_of_pos (Text.allBlank_iff.mp hgap),
      List.takeWhile_cons_of_neg (by simp [hc]), List.append_nil]
  have hmeasure : measure cfg.mode line ':' (gap ++ c :: rest) = (.colon, (':' :: gap).length) := by
    rw [hdata]
    show (Kind.colon, 1 + blankLength (gap ++ c :: rest)) = _
    rw [hlength, List.length_cons, Nat.add_comm]
  have htext : ':' :: (gap ++ c :: rest) = ':' :: gap ++ c :: rest := rfl
  rw [lay_lexeme htext hmeasure]
  rfl

/-- A comma between items ends the line. -/
theorem lay_comma {line : List Char} (hline : Text.Solid line.reverse) (n : ℕ)
    (done : List (List Char)) (rest : List Char) (breaks : ℕ) :
    (State.inside (n + 1) done line breaks).lay cfg (',' :: rest) =
      (State.inside (n + 1)
        ((indent cfg.unit (n + 1) ++ (line.reverse ++ [','])) :: done) [] 0).lay
        cfg rest := by
  have hmeasure : measure cfg.mode line ',' rest = (.comma, 1) := by
    rw [hdata]
    rfl
  have htrim : Text.trim (',' :: line).reverse = line.reverse ++ [','] := by
    rw [List.reverse_cons]
    exact Text.trim_eq_self (Text.trimmed_concat hline.trimmed.head (by decide))
  have hstep : (State.inside (n + 1) done line breaks).step cfg ⟨.comma, [','], rest⟩ =
      (State.inside (n + 1) done (',' :: line) 0).flush cfg.unit := rfl
  rw [lay_char hmeasure, hstep, flush_inside (by rw [htrim]; simp), htrim]

/-- Brackets with nothing between them stay on the line. -/
theorem lay_pair {o c : Char} (h : IsPair o c) {line : List Char}
    (hline : withBlank line = line) (n : ℕ) (done : List (List Char)) (rest : List Char)
    (breaks : ℕ) :
    (State.inside n done line breaks).lay cfg (o :: c :: rest) =
      (State.inside n done (c :: o :: line) 0).lay cfg rest := by
  have hspace := space_inside n done line 0
  rw [hline] at hspace
  have hmeasure : measure cfg.mode line o (c :: rest) = (.emptyPair, [o, c].length) := by
    rw [hdata]
    rcases h with ⟨rfl, rfl⟩ | ⟨rfl, rfl⟩ <;> rfl
  have hstep : (State.inside n done line breaks).step cfg ⟨.emptyPair, [o, c], rest⟩ =
      State.inside n done (c :: o :: line) 0 := by
    rcases h with ⟨rfl, rfl⟩ | ⟨rfl, rfl⟩
    · rfl
    · show (State.inside n done line 0).space.write ['\x7b', '\x7d'] = _
      rw [hspace]
      rfl
  have htext : o :: c :: rest = [o, c] ++ rest := rfl
  rw [lay_lexeme htext hmeasure, hstep]

/-- An opening bracket ends the line, and what follows is one level deeper. -/
theorem lay_opener {o c : Char} (h : IsPair o c) {line : List Char}
    (hline : ∀ d, line.reverse.head? = some d → Text.isBlank d = false) (n : ℕ)
    (done : List (List Char)) {rest : List Char}
    (hrest : (rest.dropWhile Text.isBlank).head? ≠ some c) (breaks : ℕ) :
    (State.inside n done line breaks).lay cfg (o :: rest) =
      (State.inside (n + 1)
        ((indent cfg.unit n ++ (line.reverse ++ [o])) :: done) [] 0).lay
        cfg rest := by
  have hmeasure : measure cfg.mode line o rest = (.opener, 1) := by
    rw [hdata]
    rcases h with ⟨rfl, rfl⟩ | ⟨rfl, rfl⟩
    · show (if (rest.dropWhile Text.isBlank).head? == some ']' then _ else _) = _
      rw [if_neg (by simpa using hrest)]
    · show (if (rest.dropWhile Text.isBlank).head? == some '\x7d' then _ else _) = _
      rw [if_neg (by simpa using hrest)]
  have htrim : Text.trim (o :: line).reverse = line.reverse ++ [o] := by
    rw [List.reverse_cons]
    exact Text.trim_eq_self (Text.trimmed_concat hline h.spec.1)
  have hflush : (State.inside n done (o :: line) 0).flush cfg.unit =
      State.inside n ((indent cfg.unit n ++ (line.reverse ++ [o])) :: done) [] 0 := by
    rw [flush_inside (by rw [htrim]; simp), htrim]
  have hstep : (State.inside n done line breaks).step cfg ⟨.opener, [o], rest⟩ =
      (let st := (State.inside n done (o :: line) 0).flush cfg.unit
      { st with
        depth := st.depth + 1, frames := ⟨.literal, st.parens⟩ :: st.frames, parens := 0 }) := by
    unfold State.step State.openBrace
    rw [hdata]
    rcases h with ⟨rfl, rfl⟩ | ⟨rfl, rfl⟩ <;> rfl
  rw [lay_char hmeasure, hstep, hflush]
  rfl

/-- A closing bracket starts a line one level up, and stays on it in front of a mark. -/
theorem lay_closer {o c : Char} (h : IsPair o c) (n : ℕ) (done done' : List (List Char))
    {line : List Char}
    (hflush : (State.inside (n + 1) done line 0).flush cfg.unit = State.inside (n + 1) done' [] 0)
    {rest : List Char} (hrest : followOf rest ≠ .word) (breaks : ℕ) :
    (State.inside (n + 1) done line breaks).lay cfg (c :: rest) =
      (if followOf rest = .mark then State.inside n done' [c] 0
      else State.inside n ((indent cfg.unit n ++ [c]) :: done') [] 0).lay
        cfg rest := by
  have hc := h.spec.2.1
  have hword : (followOf rest == .word) = false := by
    rw [beq_eq_false_iff_ne]
    exact hrest
  have hmeasure : measure cfg.mode line c rest = (.closer (followOf rest), 1) := by
    rw [hdata]
    rcases h with ⟨-, rfl⟩ | ⟨-, rfl⟩
    · show (Kind.closer (followOf rest), if followOf rest == .word then _ else 1) = _
      rw [hword, if_neg Bool.false_ne_true]
    · show (Kind.closer (followOf rest), if followOf rest == .word then _ else 1) = _
      rw [hword, if_neg Bool.false_ne_true]
  have htrim : Text.trim [c].reverse = [c] := by
    have htrimmed : Text.Trimmed ([] ++ [c]) := Text.trimmed_concat (by simp) hc
    exact Text.trim_eq_self htrimmed
  have hstep : (State.inside (n + 1) done line breaks).step cfg
        ⟨.closer (followOf rest), [c], rest⟩ =
      (State.inside (n + 1) done line 0).closeBrace cfg c (followOf rest) := by
    unfold State.step
    dsimp only
    rw [if_neg (by simp [hc])]
    rfl
  have hclose : (State.inside (n + 1) done line 0).closeBrace cfg c (followOf rest) =
      if followOf rest = .mark then State.inside n done' [c] 0
      else State.inside n ((indent cfg.unit n ++ [c]) :: done') [] 0 := by
    unfold State.closeBrace
    rw [hdata]
    dsimp only
    rw [Bool.false_and, if_neg Bool.false_ne_true, hflush]
    -- In front of a mark the line goes on behind the bracket, and otherwise it is finished.
    generalize followOf rest = follow at hrest
    cases follow with
    | mark => rfl
    | word => exact absurd rfl hrest
    | other =>
      have hline : (State.inside n done' [c] 0).flush cfg.unit =
          State.inside n ((indent cfg.unit n ++ [c]) :: done') [] 0 := by
        rw [flush_inside (by rw [htrim]; simp), htrim]
      rw [if_neg nofun]
      exact hline
  rw [lay_char hmeasure, hstep, hclose]

end

end CodeTidy.Brace
