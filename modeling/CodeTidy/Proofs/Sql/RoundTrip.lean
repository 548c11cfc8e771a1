import CodeTidy.Proofs.Settings.Indent
import CodeTidy.Proofs.Sql.Laying
import CodeTidy.Settings.Resolve

/-!
# Reading what was laid out

The layout of tokens reads as the same tokens, keywords in the wanted case, exactly if no two
neighbours fuse, and then laying it out again changes nothing. Two signs in a row, as in `- -1`, and
a number in front of a dot, as in `1 .5`, are written without a blank between them and fuse.
-/

namespace CodeTidy.Sql

/-- What a text consists of are tokens. -/
theorem Token.Reads.isToken {ts : List Token} {s : List Char} (h : Token.Reads ts s) :
    ∀ t ∈ ts, t.IsToken := by
  induction h with
  | nil => simp
  | blank _ _ ih => exact ih
  | token ht _ _ ih =>
    intro t hmem
    rcases List.mem_cons.mp hmem with rfl | hmem
    · exact ht
    · exact ih t hmem

/-- Reading a layout gives the tokens back exactly if no two of them fuse. -/
theorem ofText_layout (cfg : Config) (hunit : Text.allBlank cfg.unit = true) {ts : List Token}
    (hts : ∀ t ∈ ts, t.IsToken) :
    Token.ofText (layout cfg ts) = .ok (ts.map (Token.recased cfg.keywordCase)) ↔ ¬Fusion ts := by
  obtain ⟨s, gap, htext, hlaid, hgap, hbreak⟩ := layout_spells hunit hts
  have hstops : ∀ t ∈ ts.getLast?, t.Stops gap := by
    intro t ht
    have hmem := List.mem_of_getLast? ht
    obtain ⟨gap', rfl⟩ := hbreak (List.ne_nil_of_mem hmem)
    exact stops_blank (hts t hmem) (by decide) (.inl rfl) gap'
  have hreads := hlaid.reads_iff hts [] gap
  rw [List.append_nil] at hreads
  rw [Token.ofText_iff, htext, hreads]
  exact and_iff_left ⟨hstops, Token.reads_nil_of_blank hgap⟩

/-! ## Laying out what was laid out -/

namespace State

variable {wanted : KeywordCase}

/-- The state that the same tokens in the wanted case lead to. -/
def recased (wanted : KeywordCase) (st : State) : State :=
  { st with prev := st.prev.map (Token.recased wanted) }

/-- The depth is that of the state. -/
theorem recased_depth (st : State) : (st.recased wanted).depth = st.depth := rfl

/-- So is what is known of a `BETWEEN`. -/
theorem recased_betweenOpen (st : State) :
    (st.recased wanted).betweenOpen = st.betweenOpen := rfl

/-- Punctuation has no case, and nothing else becomes punctuation. -/
theorem map_recased_eq_punct {prev : Option Token} {c : Char} :
    prev.map (Token.recased wanted) = some (.punct c) ↔ prev = some (.punct c) := by
  have hsome : ∀ t : Token, t.recased wanted = .punct c ↔ t = .punct c := by
    intro t
    unfold Token.recased
    split_ifs with hkeyword
    · obtain ⟨w, rfl, -⟩ := Token.exists_word_of_isKeyword hkeyword
      simp
    · exact Iff.rfl
  cases prev with
  | none => simp
  | some t => simp [hsome]

/-- The case of the last token does not matter for a blank. -/
theorem spaced_recased (st : State) : (st.recased wanted).spaced = st.spaced := by
  have hbne : ∀ c, (st.prev.map (Token.recased wanted) != some (.punct c))
      = (st.prev != some (.punct c)) := by
    intro c
    rw [Bool.eq_iff_iff]
    simp only [bne_iff_ne, ne_eq, map_recased_eq_punct]
  unfold spaced recased
  rw [hbne, hbne]

/-- Nor does it matter for a sign. -/
theorem expectsOperand_recased (st : State) :
    (st.recased wanted).expectsOperand = st.expectsOperand := by
  unfold expectsOperand recased
  dsimp only
  cases st.prev with
  | none => rfl
  | some t =>
    cases t with
    | word w =>
      obtain ⟨w', hw'⟩ := Token.exists_recased_word wanted w
      simp only [Option.map_some, hw']
      rw [← hw', Token.isKeyword_recased]
    | _ => rfl

/-- Finishing a line does not look at the last token. -/
theorem flush_recased (st : State) (unit : List Char) :
    (st.recased wanted).flush unit = (st.flush unit).recased wanted := by
  unfold flush recased
  dsimp only
  split_ifs <;> rfl

/-- Nor does the end of a statement. -/
theorem startStatement_recased (st : State) :
    (st.recased wanted).startStatement = st.startStatement.recased wanted := by
  unfold startStatement recased
  dsimp only
  split_ifs <;> rfl

/-- Writing a text behind a blank, where one is wanted, does not depend on the case either. -/
theorem write_recased (text : List Char) (st : State) :
    (st.recased wanted).write text (st.recased wanted).spaced
      = (st.write text st.spaced).recased wanted := by
  rw [spaced_recased]
  rfl

/-- A word as it is written is laid out like the word. -/
theorem word_recased (cfg : Config) (t : Token) (st : State) :
    (st.recased cfg.keywordCase).word cfg (t.recased cfg.keywordCase)
      = (st.word cfg t).recased cfg.keywordCase := by
  -- The word goes on the line at hand or, if that is finished first, on the next.
  have hfrom : ∀ (st' : State) (betweenOpen : Bool),
      State.write (written cfg.keywordCase t)
          (State.spaced { st'.recased cfg.keywordCase with betweenOpen })
          { st'.recased cfg.keywordCase with betweenOpen }
        = State.recased cfg.keywordCase (State.write (written cfg.keywordCase t)
          (State.spaced { st' with betweenOpen }) { st' with betweenOpen }) :=
    fun st' betweenOpen => write_recased _ { st' with betweenOpen }
  unfold State.word
  dsimp only
  rw [Token.keyword?_recased, Token.written_recased, flush_recased, recased_depth,
    recased_betweenOpen]
  split_ifs <;> first | exact hfrom (st.flush cfg.unit) _ | exact hfrom st _

/-- Is the last token a name that a parenthesis makes a call of? -/
theorem call_recased (prev : Option Token) :
    (match prev.map (Token.recased wanted) with
      | some (.word t) => !(Token.word t).isKeyword
      | _ => false)
    = match prev with
      | some (.word t) => !(Token.word t).isKeyword
      | _ => false := by
  cases prev with
  | none => rfl
  | some t =>
    cases t with
    | word w =>
      obtain ⟨w', hw'⟩ := Token.exists_recased_word wanted w
      simp only [Option.map_some, hw']
      rw [← hw', Token.isKeyword_recased]
    | _ => rfl

/-- Punctuation is laid out without regard to case. -/
theorem punct_recased (cfg : Config) (c : Char) (more : Bool) (st : State) :
    (st.recased wanted).punct cfg c more = (st.punct cfg c more).recased wanted := by
  have hwrite : ∀ spaced, (st.recased wanted).write [c] spaced
      = (st.write [c] spaced).recased wanted := fun _ => rfl
  have hcomma : (st.recased wanted).comma cfg = (st.comma cfg).recased wanted := by
    unfold comma
    rw [flush_recased]
    cases cfg.commaPosition with
    | after => exact flush_recased (st.write [','] false) cfg.unit
    | before => rfl
  unfold State.punct
  rw [hcomma, recased_depth, spaced_recased, hwrite, flush_recased]
  split_ifs
  · rfl
  · rfl
  · exact congrArg (fun call => State.recased wanted
      { State.write [c] (!call && st.spaced) st with depth := st.depth + 1 })
      (call_recased st.prev)
  · rfl
  · rfl

/-- So is an operator. -/
theorem operator_recased (op : List Char) (st : State) :
    (st.recased wanted).operator op = (st.operator op).recased wanted := by
  unfold State.operator
  rw [expectsOperand_recased, write_recased]
  rfl

/-- The last token of a state in the wanted case. -/
theorem prev_recased {u : Token} (hu : u.recased wanted = u) (st : State) :
    ({ st.recased wanted with prev := some u } : State)
      = ({ st with prev := some u } : State).recased wanted := by
  unfold recased
  simp only [Option.map_some, hu]

/-- A token that opens no clause is laid out without regard to case. -/
theorem token_recased (cfg : Config) (t : Token) (more : Bool) (st : State) :
    (st.recased cfg.keywordCase).token cfg (t.recased cfg.keywordCase) more
      = (st.token cfg t more).recased cfg.keywordCase := by
  cases t with
  | word w =>
    obtain ⟨w', hw'⟩ := Token.exists_recased_word cfg.keywordCase w
    have hword := word_recased cfg (.word w) st
    rw [hw'] at hword ⊢
    unfold State.token
    dsimp only
    rw [hword, ← hw']
    rfl
  | literal text =>
    have hu : (Token.literal text).recased cfg.keywordCase = .literal text :=
      Token.recased_of_not_word (by simp)
    rw [hu]
    unfold State.token
    dsimp only
    rw [write_recased]
    exact prev_recased hu _
  | lineComment text =>
    have hu : (Token.lineComment text).recased cfg.keywordCase = .lineComment text :=
      Token.recased_of_not_word (by simp)
    rw [hu]
    unfold State.token
    dsimp only
    rw [show (st.recased cfg.keywordCase).write text true
      = (st.write text true).recased cfg.keywordCase from rfl, flush_recased]
    exact prev_recased hu _
  | blockComment text =>
    have hu : (Token.blockComment text).recased cfg.keywordCase = .blockComment text :=
      Token.recased_of_not_word (by simp)
    rw [hu]
    exact prev_recased hu (st.write text true)
  | punct c =>
    have hu : (Token.punct c).recased cfg.keywordCase = .punct c :=
      Token.recased_of_not_word (by simp)
    rw [hu]
    unfold State.token
    dsimp only
    rw [punct_recased]
    exact prev_recased hu _
  | operator op =>
    have hu : (Token.operator op).recased cfg.keywordCase = .operator op :=
      Token.recased_of_not_word (by simp)
    rw [hu]
    unfold State.token
    dsimp only
    rw [operator_recased]
    exact prev_recased hu _

/-- The words of a phrase are found without regard to case. -/
theorem startsWith_recased (phrase : List String) (us : List Token) :
    startsWith phrase (us.map (Token.recased wanted)) = startsWith phrase us := by
  induction phrase, us using startsWith.induct with
  | case1 us => rfl
  | case2 k phrase w us ih =>
    have hword : ∃ w', (Token.word w).recased wanted = .word w' ∧
        w'.map Text.lowerAscii = w.map Text.lowerAscii := by
      unfold Token.recased
      split_ifs
      · exact ⟨_, rfl, Token.map_lower_cased w⟩
      · exact ⟨w, rfl, rfl⟩
    obtain ⟨w', hw', hlower⟩ := hword
    simp only [List.map_cons, hw', startsWith, ih, Text.eqIgnoringAsciiCase, hlower]
  | case3 k phrase us hnot =>
    cases us with
    | nil => rfl
    | cons u us =>
      have hu : u.recased wanted = u := Token.recased_of_not_word fun w hw => hnot w us (by rw [hw])
      cases u with
      | word w => exact absurd rfl (hnot w us)
      | _ => rw [List.map_cons, hu]; rfl

/-- So is the phrase that opens a clause. -/
theorem clauseLength_recased (us : List Token) :
    clauseLength (us.map (Token.recased wanted)) = clauseLength us := by
  unfold clauseLength
  simp only [startsWith_recased]

/-- The phrase of a clause is laid out without regard to case. -/
theorem clause_recased (cfg : Config) {us : List Token} (hus : ∀ u ∈ us, IsClauseWord u)
    (st : State) :
    (st.recased cfg.keywordCase).clause cfg (us.map (Token.recased cfg.keywordCase))
      = (st.clause cfg us).recased cfg.keywordCase := by
  have hwords : (us.map (Token.recased cfg.keywordCase)).map (fun u => cased cfg.keywordCase u.text)
      = us.map fun u => cased cfg.keywordCase u.text := by
    rw [List.map_map]
    refine List.map_congr_left ?_
    intro u hu
    obtain ⟨w, -, hkeyword⟩ := hus u hu
    show cased cfg.keywordCase (u.recased cfg.keywordCase).text = _
    rw [Token.text_recased, written, if_pos hkeyword, Token.cased_cased]
  unfold State.clause
  rw [hwords, flush_recased, List.getLast?_map]
  -- Only the last token of the state depends on the case, and it is set again at the end.
  exact congrArg (fun st' : State => { st' with
      indented := true, prev := us.getLast?.map (Token.recased cfg.keywordCase) })
    (flush_recased (State.write (Text.joinWith [' '] (us.map fun u =>
      cased cfg.keywordCase u.text)) false { st.flush cfg.unit with indented := false }) cfg.unit)

/-- Tokens are laid out without regard to case. -/
theorem run_recased (cfg : Config) (fuel : ℕ) (st : State) (us : List Token) :
    State.run cfg fuel (st.recased cfg.keywordCase) (us.map (Token.recased cfg.keywordCase))
      = (State.run cfg fuel st us).recased cfg.keywordCase := by
  induction fuel generalizing st us with
  | zero => rfl
  | succ fuel ih =>
    cases us with
    | nil => rfl
    | cons u us =>
      have hempty : (us.map (Token.recased cfg.keywordCase)).isEmpty = us.isEmpty := by
        rw [List.isEmpty_map]
      have hphrase : clauseLength
          (u.recased cfg.keywordCase :: us.map (Token.recased cfg.keywordCase))
            = clauseLength (u :: us) := clauseLength_recased (u :: us)
      have hstart : (st.recased cfg.keywordCase).startStatement
          = st.startStatement.recased cfg.keywordCase := startStatement_recased st
      cases hn : (if st.startStatement.depth == 0 then clauseLength (u :: us) else 0) with
      | zero =>
        rw [run_token hn, List.map_cons, run_token (by rw [hstart, recased_depth, hphrase, hn]),
          hstart, hempty, token_recased, ih]
      | succ n =>
        rw [run_clause hn, List.map_cons, run_clause (by rw [hstart, recased_depth, hphrase, hn]),
          hstart, ← List.map_take, ← List.map_drop, ← List.map_cons,
          clause_recased cfg (isClauseWord_of_phrase hn), ih]

end State

/-- The layout of tokens as it writes them is the same. -/
theorem layout_recased (cfg : Config) (ts : List Token) :
    layout cfg (ts.map (Token.recased cfg.keywordCase)) = layout cfg ts := by
  have hrun := State.run_recased cfg ts.length {} ts
  unfold layout
  rw [List.length_map]
  have hempty : ({} : State) = ({} : State).recased cfg.keywordCase := rfl
  rw [hempty, hrun, State.flush_recased]
  rfl

/-! ## Formatting -/

/-- Formatting a text that has tokens succeeds. The formatted text has the same tokens in the same
order, keywords in the wanted case, exactly if no two neighbours fuse: a number and the dot behind
it, or a sign of a single operand and an operator or a comment whose first character goes on with
the sign. And then formatting it again changes nothing. -/
theorem tidy_tokens (settings : Settings) {s : List Char} {ts : List Token}
    (h : Token.ofText s = .ok ts) :
    ∃ out, tidy settings s = .ok out ∧
      (Token.ofText out = .ok (ts.map (Token.recased settings.keywordCase)) ↔ ¬Fusion ts) ∧
      (¬Fusion ts → tidy settings out = .ok out) := by
  have hts : ∀ t ∈ ts, t.IsToken := (Token.ofText_iff.mp h).isToken
  have hread := ofText_layout
    ⟨settings.indentUnit, settings.keywordCase, settings.commaPosition⟩
    settings.allBlank_indentUnit hts
  refine ⟨layout ⟨settings.indentUnit, settings.keywordCase, settings.commaPosition⟩ ts, ?_, hread,
    ?_⟩
  · unfold tidy
    rw [h]
    rfl
  · intro hfusion
    unfold tidy
    rw [hread.mpr hfusion]
    exact congrArg Except.ok (layout_recased _ ts)

/-- Tokens of which no two neighbours fuse. -/
theorem tidy_tokens_select :
    Token.ofText "select 1".toList = .ok [.word "select".toList, .literal ['1']] ∧
      tidy (Settings.resolve {} "sql") "SELECT\n  1\n".toList
        = .ok "SELECT\n  1\n".toList := by
  have hread : Token.ofText "select 1".toList = .ok [.word "select".toList, .literal ['1']] := by
    decide +kernel
  have hfusion : ¬Fusion [.word "select".toList, .literal ['1']] := by
    rintro ⟨before, t, u, after, heq, hfuses⟩
    obtain rfl : before = [] := by
      have hlength := congrArg List.length heq
      simp only [List.length_append, List.length_cons, List.length_nil] at hlength
      exact List.length_eq_zero_iff.mp (by omega)
    obtain ⟨rfl, -⟩ := List.cons.inj heq
    exact not_fuses_behind_word hfuses
  obtain ⟨out, hout, -, hagain⟩ := tidy_tokens (Settings.resolve {} "sql") hread
  have hlaid : tidy (Settings.resolve {} "sql") "select 1".toList
      = .ok "SELECT\n  1\n".toList := by decide +kernel
  obtain rfl := Except.ok.inj (hlaid.symm.trans hout)
  exact ⟨hread, hagain hfusion⟩

/-- Two signs in a row fuse: the first makes a comment of the second and its operand. -/
theorem tidy_fuses_signs :
    ∃ ts out, Token.ofText "select - -1".toList = .ok ts ∧
      tidy (Settings.resolve {} "sql") "select - -1".toList = .ok out ∧
      Token.ofText out = .ok [.word "SELECT".toList, .lineComment "--1".toList] ∧
      Token.ofText out
        ≠ .ok (ts.map (Token.recased (Settings.resolve {} "sql").keywordCase)) := by
  refine ⟨[.word "select".toList, .operator ['-'], .operator ['-'], .literal ['1']],
    "SELECT\n  --1\n".toList, ?_⟩
  decide +kernel

end CodeTidy.Sql
