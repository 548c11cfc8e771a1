import CodeTidy.Backend.Plugin
import CodeTidy.Proofs.Sql.RoundTrip

/-!
# What is left open is rejected, and nothing else is lost

`enclosed` reads a text from left to right and looks only for what opens and closes comments and
quotes, not for tokens. It finds the quoted literals and the block comments of the text, or what the
text leaves open. A text has tokens exactly if nothing is left open, and then the quoted literals
and block comments are those of the tokens (`read_enclosed`). The layout writes the tokens in their
order with white space around them, so `formatted_unless_open` says of every text what comes of it.
-/

namespace CodeTidy.Sql

open Token

/-- Where a reading from left to right stands in a text. What has been read of a comment or a quoted
literal is reversed. -/
inductive Region where
  | code
  | line
  | block (opened : List Char)
  | quote (q : Char) (opened : List Char)

/-- The block comments and quoted literals of a text from some place on, or what is left open in the
end. A doubled quote does not close the literal. -/
def enclosed : Region → List Char → Except Fault (List (List Char))
  | .code, '-' :: '-' :: s => enclosed .line s
  | .code, '/' :: '*' :: s => enclosed (.block ['*', '/']) s
  | .code, c :: s => enclosed (if quotes.contains c then .quote c [c] else .code) s
  | .line, c :: s => enclosed (if c == '\n' then .code else .line) s
  | .block opened, '*' :: '/' :: s => (enclosed .code s).map (('/' :: '*' :: opened).reverse :: ·)
  | .block opened, c :: s => enclosed (.block (c :: opened)) s
  | .quote q opened, c :: d :: s =>
    if c == q then
      if d == q then enclosed (.quote q (d :: c :: opened)) s
      else (enclosed .code (d :: s)).map ((c :: opened).reverse :: ·)
    else enclosed (.quote q (c :: opened)) (d :: s)
  | .quote q opened, [c] => if c == q then .ok [(c :: opened).reverse] else .error (.openQuote q)
  | .quote q _, [] => .error (.openQuote q)
  | .block _, [] => .error .openComment
  | .code, [] => .ok []
  | .line, [] => .ok []

/-- The characters of a block comment or of a quoted literal. -/
def Token.enclosed? : Token → Option (List Char)
  | .blockComment text => some text
  | .literal text => if text.head?.any quotes.contains then some text else none
  | _ => none

/-! ## Reading parts of a text -/

/-- A character that opens neither a comment nor a quoted literal is passed over. -/
theorem enclosed_code_cons {c : Char} {s : List Char} (hquote : c ∉ quotes)
    (hline : c = '-' → s.head? ≠ some '-') (hblock : c = '/' → s.head? ≠ some '*') :
    enclosed .code (c :: s) = enclosed .code s := by
  rw [enclosed.eq_3]
  · rw [if_neg (by simpa using hquote)]
  · rintro s' rfl rfl
    exact hline rfl rfl
  · rintro s' rfl rfl
    exact hblock rfl rfl

/-- Characters that open nothing wherever they stand are passed over. -/
theorem enclosed_code_append {w : List Char}
    (hw : ∀ c ∈ w, c ∉ quotes ∧ c ≠ '-' ∧ c ≠ '/') (s : List Char) :
    enclosed .code (w ++ s) = enclosed .code s := by
  induction w with
  | nil => rfl
  | cons c w ih =>
    obtain ⟨hquote, hline, hblock⟩ := hw c List.mem_cons_self
    rw [List.cons_append, enclosed_code_cons hquote (absurd · hline) (absurd · hblock),
      ih fun d hd => hw d (List.mem_cons_of_mem _ hd)]

/-- A comment to the end of the line ends with the line. -/
theorem enclosed_line (s : List Char) :
    enclosed .line s = enclosed .code (s.dropWhile (· != '\n')) := by
  induction s with
  | nil => rfl
  | cons c s ih =>
    rw [enclosed.eq_4]
    by_cases hc : c = '\n'
    · subst hc
      rw [if_pos (by decide), List.dropWhile_cons_of_neg (by decide),
        enclosed_code_cons (by decide) (absurd · (by decide)) (absurd · (by decide))]
    · rw [if_neg (by simpa using hc), ih, List.dropWhile_cons_of_pos (by simpa using hc)]

/-- A block comment ends where the token does. -/
theorem enclosed_block (opened s : List Char) :
    enclosed (.block opened) s =
      match cutComment opened s with
      | some (text, rest) => (enclosed .code rest).map (text.reverse :: ·)
      | none => .error .openComment := by
  induction opened, s using cutComment.induct with
  | case1 opened s => simp [enclosed, cutComment]
  | case2 opened c s hopen ih =>
    rw [enclosed.eq_6 _ _ _ hopen, cutComment.eq_2 _ _ _ hopen, ih]
  | case3 opened => simp [enclosed, cutComment]

/-- A quoted literal ends where the token does. -/
theorem enclosed_quote (q : Char) (opened s : List Char) :
    enclosed (.quote q opened) s =
      match cutQuoted q opened s with
      | some (text, rest) => (enclosed .code rest).map (text.reverse :: ·)
      | none => .error (.openQuote q) := by
  induction opened, s using cutQuoted.induct q with
  | case1 opened c d s hc hd ih => simp only [enclosed, cutQuoted, hc, hd, if_true, ih]
  | case2 opened c d s hc hd =>
    simp only [enclosed, cutQuoted, hc, hd, if_true, Bool.false_eq_true, if_false]
  | case3 opened c d s hc ih =>
    simp only [enclosed, cutQuoted, hc, Bool.false_eq_true, if_false, ih]
  | case4 opened c hc => simp [enclosed, cutQuoted, hc, Except.map]
  | case5 opened c hc => simp [enclosed, cutQuoted, hc]
  | case6 opened => simp [enclosed, cutQuoted]

/-! ## Reading tokens -/

/-- White space opens nothing. -/
theorem enclosed_blank {c : Char} (hc : Text.isBlank c = true) (s : List Char) :
    enclosed .code (c :: s) = enclosed .code s := by
  have hnot := Text.not_mem_of_blank hc
    (by decide : ('-' :: '/' :: quotes).all (!Text.isBlank ·) = true)
  simp only [List.mem_cons, not_or] at hnot
  exact enclosed_code_cons hnot.2.2 (absurd · hnot.1) (absurd · hnot.2.1)

/-- What goes on with a word or a number opens nothing. -/
theorem opens_nothing_of_continues {c : Char}
    (hc : continuesNumber c = true ∨ continuesWord c = true ∨ c ∈ operatorTail) :
    c ∉ quotes ∧ c ≠ '-' ∧ c ≠ '/' := by
  have hall : ∀ d ∈ '-' :: '/' :: quotes,
      continuesNumber d = false ∧ continuesWord d = false ∧ d ∉ operatorTail :=
    List.all_iff_forall_prop.mp (by decide +kernel)
  have hnot : c ∉ '-' :: '/' :: quotes := by
    intro hmem
    obtain ⟨hnumber, hword, htail⟩ := hall c hmem
    rcases hc with hc | hc | hc
    · simp [hnumber] at hc
    · simp [hword] at hc
    · exact htail hc
  simp only [List.mem_cons, not_or] at hnot
  exact ⟨hnot.2.2, hnot.1, hnot.2.1⟩

/-- The first token of a text holds the first part that is enclosed, or nothing that is. -/
theorem enclosed_next (c : Char) (s : List Char) :
    enclosed .code (c :: s) =
      match next c s with
      | .ok (none, rest) => enclosed .code rest
      | .ok (some t, rest) => (enclosed .code rest).map (t.enclosed?.toList ++ ·)
      | .error fault => .error fault := by
  -- A token that opens nothing leaves the reading where it is.
  have hplain : ∀ r : Except Fault (List (List Char)), r = r.map (([] : List _) ++ ·) := by
    rintro (fault | parts) <;> rfl
  have htake : ∀ (p : Char → Bool), (∀ d, p d = true → d ∉ quotes ∧ d ≠ '-' ∧ d ≠ '/') →
      enclosed .code s = enclosed .code (s.dropWhile p) := by
    intro p hp
    conv_lhs => rw [← List.takeWhile_append_dropWhile (p := p) (l := s)]
    exact enclosed_code_append (fun d hd => hp d (List.mem_takeWhile_imp hd)) _
  unfold next
  split_ifs with hblank hline hblock hquote hdigit hword hpunct
  · exact enclosed_blank hblank s
  · -- A comment to the end of the line.
    simp only [Bool.and_eq_true, beq_iff_eq] at hline
    obtain ⟨rfl, hhead⟩ := hline
    obtain ⟨s, rfl⟩ := List.head?_eq_some_iff.mp hhead
    rw [enclosed.eq_1, enclosed_line, List.dropWhile_cons_of_pos (by decide)]
    exact hplain _
  · -- A block comment.
    simp only [Bool.and_eq_true, beq_iff_eq] at hblock
    obtain ⟨rfl, hhead⟩ := hblock
    obtain ⟨s, rfl⟩ := List.head?_eq_some_iff.mp hhead
    rw [enclosed.eq_2, enclosed_block, List.tail_cons]
    cases cutComment ['*', '/'] s with
    | none => rfl
    | some cut => rfl
  · -- A quoted literal.
    have hq : c ∈ quotes := List.contains_iff_mem.mp hquote
    have hopens : enclosed .code (c :: s) = enclosed (.quote c [c]) s := by
      rw [enclosed.eq_3]
      · rw [if_pos hquote]
      · rintro s' rfl -
        exact absurd hq (by decide)
      · rintro s' rfl -
        exact absurd hq (by decide)
    rw [hopens, enclosed_quote]
    cases hcut : cutQuoted c [c] s with
    | none => rfl
    | some cut =>
      obtain ⟨text, rest⟩ := cut
      obtain ⟨body, -, rfl, -⟩ := cutQuoted_spec hcut
      have hhead : (body.reverse ++ [c]).reverse = c :: body := by simp
      simp [Token.enclosed?, hhead, hq]
  · -- A number.
    have hcontinues : continuesNumber c = true := by
      simp [continuesNumber, Text.isAsciiAlphanumeric, hdigit]
    obtain ⟨hnot, hdash, hslash⟩ := opens_nothing_of_continues (.inl hcontinues)
    rw [enclosed_code_cons hnot (absurd · hdash) (absurd · hslash),
      htake continuesNumber fun d hd => opens_nothing_of_continues (.inl hd)]
    have hnone : (Token.literal (c :: s.takeWhile continuesNumber)).enclosed? = none := by
      simpa [Token.enclosed?] using hnot
    simp only [hnone]
    exact hplain _
  · -- A word.
    have hnot := not_mem_of_startsWord hword
    simp only [List.mem_cons, List.not_mem_nil, or_false, not_or] at hnot
    rw [enclosed_code_cons (by simpa using hquote) (absurd · hnot.1) (absurd · hnot.2.1),
      htake continuesWord fun d hd => opens_nothing_of_continues (.inr (.inl hd))]
    exact hplain _
  · -- Punctuation.
    have hall : '-' ∉ punctuation ∧ '/' ∉ punctuation := by decide
    have hmem : c ∈ punctuation := List.contains_iff_mem.mp hpunct
    have hdash : c ≠ '-' := by
      rintro rfl
      exact hall.1 hmem
    have hslash : c ≠ '/' := by
      rintro rfl
      exact hall.2 hmem
    rw [enclosed_code_cons (by simpa using hquote) (absurd · hdash) (absurd · hslash)]
    exact hplain _
  · -- An operator, whose first character may be a dash or a slash that opens no comment.
    rw [enclosed_code_cons (by simpa using hquote) (by simpa using hline) (by simpa using hblock),
      htake operatorTail.contains fun d hd =>
        opens_nothing_of_continues (.inr (.inr (List.contains_iff_mem.mp hd)))]
    exact hplain _

/-- A text has tokens exactly if it leaves nothing open, and then the parts that are enclosed are
tokens. -/
theorem read_enclosed {n : ℕ} (acc : List Token) {s : List Char} (hn : s.length ≤ n) :
    (Token.read n acc s).map (fun r => r.reverse.filterMap Token.enclosed?) =
      (enclosed .code s).map (acc.reverse.filterMap Token.enclosed? ++ ·) := by
  induction n generalizing acc s with
  | zero =>
    obtain rfl : s = [] := List.length_eq_zero_iff.mp (Nat.le_zero.mp hn)
    simp [Token.read, enclosed, Except.map]
  | succ n ih =>
    cases s with
    | nil => simp [Token.read, enclosed, Except.map]
    | cons c s =>
      have hlength : s.length ≤ n := Nat.le_of_succ_le_succ hn
      rw [enclosed_next]
      cases hnext : next c s with
      | error fault => simp only [Token.read, hnext, Except.map]
      | ok taken =>
        obtain ⟨_ | t, rest⟩ := taken
        · obtain ⟨-, rfl⟩ := next_none hnext
          simp only [Token.read, hnext, ih acc hlength]
        · have hrest : rest.length ≤ n := by
            obtain ⟨ht, g, -, hs, -⟩ := next_some hnext
            obtain ⟨d, tail, htext, -⟩ := ht.exists_head
            have hlen := congrArg List.length hs
            rw [htext] at hlen
            simp only [List.length_cons, List.length_append] at hlen
            omega
          simp only [Token.read, hnext, ih (t :: acc) hrest]
          cases enclosed .code rest with
          | error fault => rfl
          | ok parts =>
            cases ht : t.enclosed? <;> simp [Except.map, List.filterMap_append, ht]

/-- So it is with the tokens of a text. -/
theorem ofText_enclosed (s : List Char) :
    (Token.ofText s).map (·.filterMap Token.enclosed?) = enclosed .code s := by
  have hread := read_enclosed [] (Nat.le_refl s.length)
  have hid : ∀ r : Except Fault (List (List Char)), r.map (([] : List _) ++ ·) = r := by
    rintro (fault | parts) <;> rfl
  rw [List.reverse_nil, List.filterMap_nil, hid] at hread
  rw [← hread]
  unfold Token.ofText
  cases Token.read s.length [] s <;> rfl

/-! ## Formatting -/

/-- A text consists of its tokens, in their order, with white space around them. -/
theorem Token.Reads.spaced {ts : List Token} {s : List Char} (h : Token.Reads ts s) :
    Text.Spaced (ts.map Token.text) s := by
  induction h with
  | nil => exact .nil rfl
  | @blank c s ts hc _ ih => exact ih.blank_append (g := [c]) (by simp [Text.allBlank, hc])
  | token _ _ _ ih => exact (Text.spaced_self _).append ih

/-- A text that spells tokens consists of them as they are written. -/
theorem Laid.spaced {wanted : KeywordCase} {ts : List Token} {s : List Char}
    (h : Laid wanted ts s) : Text.Spaced (ts.map (written wanted)) s := by
  induction h with
  | nil => exact .nil rfl
  | @snoc ts s gap u _ hgap ih =>
    rw [List.map_append]
    exact (ih.append_blank hgap.blank).append (Text.spaced_self _)

/-- A quoted literal or a block comment is written as it is. -/
theorem written_of_enclosed {wanted : KeywordCase} {t : Token} {part : List Char}
    (h : t.enclosed? = some part) : written wanted t = part := by
  have hnot : ∀ w, t ≠ .word w := by
    rintro w rfl
    simp [Token.enclosed?] at h
  rw [← text_recased, recased_of_not_word hnot]
  cases t with
  | blockComment text => exact Option.some.inj h
  | literal text =>
    unfold Token.enclosed? at h
    dsimp only at h
    split_ifs at h
    exact Option.some.inj h
  | _ => simp [Token.enclosed?] at h

/-- So the enclosed parts are among the tokens as they are written, in the same order. -/
theorem enclosed_sublist (wanted : KeywordCase) (ts : List Token) :
    (ts.filterMap Token.enclosed?).Sublist (ts.map (written wanted)) := by
  induction ts with
  | nil => exact .slnil
  | cons t ts ih =>
    cases ht : t.enclosed? with
    | none =>
      rw [List.filterMap_cons_none ht]
      exact ih.cons _
    | some part =>
      rw [List.filterMap_cons_some ht, List.map_cons, written_of_enclosed ht]
      exact ih.cons_cons _

/-- There is no white space in a word. -/
theorem strip_word {w : List Char} (h : IsToken (.word w)) : Text.strip w = w := by
  have hword : ∀ c ∈ w, Text.isBlank c = false := by
    intro c hc
    by_contra hblank
    rw [Bool.not_eq_false] at hblank
    cases h with
    | word _ hstart htail =>
      rcases List.mem_cons.mp hc with rfl | hc
      · simp [startsWord_of_blank hblank] at hstart
      · simpa [continuesWord_of_blank hblank] using htail c hc
  unfold Text.strip
  exact List.filter_eq_self.mpr fun c hc => by simp [hword c hc]

/-- A token as it is written differs from the token in the case of letters only. -/
theorem lower_strip_written (wanted : KeywordCase) {t : Token} (ht : t.IsToken) :
    (Text.strip (written wanted t)).map Text.lowerAscii =
      (Text.strip t.text).map Text.lowerAscii := by
  have hrecased : (t.recased wanted).IsToken := ht.recased
  rw [← text_recased]
  unfold recased at hrecased ⊢
  split_ifs at hrecased ⊢ with hkeyword
  · obtain ⟨w, rfl, -⟩ := exists_word_of_isKeyword hkeyword
    rw [text, strip_word hrecased, text, strip_word ht, map_lower_cased]
  · rfl

/-- The plugin rejects a text exactly if the text leaves a quote or a block comment open, and says
which. Any other text consists of tokens with white space around them, and comes out as the same
tokens in their order with white space around them, keywords in the wanted case. So the characters
that are not white space come out in their order and no others, up to the case of keywords. The
quoted literals and the block comments of the text are tokens, and come out as they are. -/
theorem formatted_unless_open (r : Request) :
    ((∃ failure, Plugin.sql.format r = .error failure) ↔
      ∃ fault, enclosed .code r.code.toList = .error fault) ∧
    match enclosed .code r.code.toList with
    | .error fault => Plugin.sql.format r = .error (.sql fault)
    | .ok parts => ∃ ts out,
        Token.ofText r.code.toList = .ok ts ∧
        Plugin.sql.format r = .ok (String.ofList out) ∧
        Text.Spaced (ts.map Token.text) r.code.toList ∧
        Text.Spaced (ts.map (written r.settings.keywordCase)) out ∧
        (Text.strip out).map Text.lowerAscii = (Text.strip r.code.toList).map Text.lowerAscii ∧
        ts.filterMap Token.enclosed? = parts ∧
        parts.Sublist (ts.map (written r.settings.keywordCase)) := by
  have hread := ofText_enclosed r.code.toList
  cases hts : Token.ofText r.code.toList with
  | error fault =>
    have hformat : Plugin.sql.format r = .error (.sql fault) := by
      simp [Plugin.sql, tidy, hts, bind, Except.bind]
    rw [hts] at hread
    rw [← hread]
    exact ⟨iff_of_true ⟨_, hformat⟩ ⟨fault, rfl⟩, hformat⟩
  | ok ts =>
    have hreads := Token.ofText_iff.mp hts
    obtain ⟨s, gap, hlayout, hlaid, hgap, -⟩ :=
      @layout_spells ⟨r.settings.indentUnit, r.settings.keywordCase, r.settings.commaPosition⟩
        r.settings.allBlank_indentUnit ts hreads.isToken
    have hformat : Plugin.sql.format r = .ok (String.ofList (s ++ gap)) := by
      simp [Plugin.sql, tidy, hts, bind, Except.bind, pure, Except.pure, hlayout]
    have hout := hlaid.spaced.append_blank hgap
    rw [hts] at hread
    rw [← hread]
    refine ⟨iff_of_false (by simp [hformat]) (by simp [Except.map]),
      ts, s ++ gap, rfl, hformat, hreads.spaced, hout, ?_, rfl, enclosed_sublist _ ts⟩
    rw [hout.strip_eq, hreads.spaced.strip_eq, List.flatMap_map, List.flatMap_map, List.map_flatMap,
      List.map_flatMap]
    exact List.flatMap_congr fun t ht => lower_strip_written _ (hreads.isToken t ht)

/-- A doubled quote and the start of a comment inside a literal close and open nothing, and a
comment is not closed by the asterisk that opens it. -/
example : enclosed .code "a'--''/*' -- '\n/*'*/b".toList = .ok ["'--''/*'".toList, "/*'*/".toList] ∧
    enclosed .code "a /*/".toList = .error .openComment ∧
    enclosed .code "'a''".toList = .error (.openQuote '\'') := by
  decide +kernel

end CodeTidy.Sql
