import CodeTidy.Proofs.Sql.Growth

/-!
# Which conditions start a line

An `AND` or an `OR` outside of parentheses starts a line, unless a `BETWEEN` in front of it is still
without its `AND`. Whether one is, the layout reads off all tokens in front: a `BETWEEN` or an `AND`
in parentheses counts, and one of an earlier statement too. The `AND` that completes a `BETWEEN`
is another matter: it stands behind the `BETWEEN` in the same statement, and only what is outside of
parentheses counts there. The layout does the right thing exactly if both come to the same.

`State.Tracks` is the invariant that carries the reading from token to token, and
`tidy_breaks_conditions` says of every `AND` and `OR` outside of parentheses where it stands.
-/

namespace CodeTidy.Sql

open Token

/-! ## Conditions -/

/-- The parentheses that are open behind a token. The end of a statement closes all of them. -/
def Token.nest (depth : ℕ) : Token → ℕ
  | .punct '(' => depth + 1
  | .punct ')' => depth - 1
  | .punct ';' => 0
  | _ => depth

/-- The parentheses that are open behind tokens. -/
def nesting (ts : List Token) : ℕ := ts.foldl Token.nest 0

/-- The tokens outside of parentheses, where `depth` are open in front. -/
def outside (depth : ℕ) : List Token → List Token
  | [] => []
  | t :: ts => if depth == 0 then t :: outside (t.nest depth) ts else outside (t.nest depth) ts

/-- The tokens of the last statement. -/
def statement (ts : List Token) : List Token := (ts.reverse.takeWhile (· != .punct ';')).reverse

/-- The last `AND` or `BETWEEN` of the tokens is a `BETWEEN`. -/
def AwaitsAnd (ts : List Token) : Prop :=
  ((ts.filterMap Token.keyword?).filter ["AND", "BETWEEN"].contains).getLast? = some "BETWEEN"

instance (ts : List Token) : Decidable (AwaitsAnd ts) := inferInstanceAs (Decidable (_ = _))

/-- A token outside of parentheses is the `AND` of a `BETWEEN`: the next one of the same statement
outside of parentheses. -/
def Completes (before : List Token) (t : Token) : Prop :=
  t.keyword? = some "AND" ∧ AwaitsAnd (outside 0 (statement before))

instance (before : List Token) (t : Token) : Decidable (Completes before t) :=
  inferInstanceAs (Decidable (_ ∧ _))

/-- The layout finishes the line behind the token, if it stands outside of parentheses. -/
def Token.endsLine (position : CommaPosition) : Token → Bool
  | .lineComment _ => true
  | .punct c => c == ';' || (c == ',' && position == .after)
  | _ => false

/-- The layout finishes the line behind the last of the tokens, or behind the clause phrase that
they end with. -/
def EndsLine (position : CommaPosition) (ts : List Token) : Prop :=
  ts.getLast?.any (Token.endsLine position) = true ∨
    ∃ phrase ∈ clauses, phrase.map some <:+ ts.map Token.keyword?

instance (position : CommaPosition) (ts : List Token) : Decidable (EndsLine position ts) :=
  inferInstanceAs (Decidable (_ ∨ _))

/-- What is behind another token awaits its `AND`. -/
theorem awaitsAnd_concat {ts : List Token} {u : Token} :
    AwaitsAnd (ts ++ [u]) ↔ u.keyword? = some "BETWEEN" ∨
      (u.keyword? ≠ some "AND" ∧ AwaitsAnd ts) := by
  unfold AwaitsAnd
  rw [List.filterMap_append, List.filter_append]
  cases hkey : u.keyword? with
  | none => simp [hkey]
  | some k =>
    by_cases hand : k = "AND"
    · subst hand
      simp [hkey]
    · by_cases hbetween : k = "BETWEEN"
      · subst hbetween
        simp [hkey]
      · simp [hkey, hand, hbetween]

/-- The words of a phrase change nothing. -/
theorem awaitsAnd_append {ts us : List Token}
    (hus : ∀ u ∈ us, u.keyword? ≠ some "AND" ∧ u.keyword? ≠ some "BETWEEN") :
    AwaitsAnd (ts ++ us) ↔ AwaitsAnd ts := by
  induction us using List.reverseRecOn with
  | nil => rw [List.append_nil]
  | append_singleton us u ih =>
    obtain ⟨hand, hbetween⟩ := hus u (by simp)
    rw [← List.append_assoc, awaitsAnd_concat, ih fun v hv => hus v (by simp [hv])]
    simp [hand, hbetween]

namespace State

variable {cfg : Config} {ts us : List Token} {st : State} {u : Token}

/-! ## What a token changes -/

/-- Finishing a line leaves the parentheses and the flag. -/
theorem flush_flags (unit : List Char) (st : State) :
    (st.flush unit).depth = st.depth ∧ (st.flush unit).betweenOpen = st.betweenOpen := by
  unfold flush
  dsimp only
  split_ifs <;> exact ⟨rfl, rfl⟩

/-- So does a comma between the items of a list. -/
theorem comma_flags (cfg : Config) (st : State) :
    (st.comma cfg).depth = st.depth ∧ (st.comma cfg).betweenOpen = st.betweenOpen := by
  unfold State.comma
  cases cfg.commaPosition with
  | after => exact flush_flags cfg.unit (st.write [','] false)
  | before => exact flush_flags cfg.unit st

/-- Punctuation changes the parentheses and leaves the flag. -/
theorem punct_flags (cfg : Config) (c : Char) (more : Bool) (st : State) :
    (st.punct cfg c more).depth = Token.nest st.depth (.punct c) ∧
      (st.punct cfg c more).betweenOpen = st.betweenOpen := by
  by_cases hopen : c = '('
  · subst hopen
    exact ⟨rfl, rfl⟩
  by_cases hclose : c = ')'
  · subst hclose
    exact ⟨rfl, rfl⟩
  by_cases hsemi : c = ';'
  · subst hsemi
    exact ⟨rfl, (flush_flags cfg.unit _).2⟩
  have hnest : Token.nest st.depth (.punct c) = st.depth := by
    simp [Token.nest, hopen, hclose, hsemi]
  rw [hnest]
  unfold State.punct
  simp only [beq_iff_eq, hopen, hclose, hsemi, if_false]
  split_ifs
  · exact comma_flags cfg st
  · exact ⟨rfl, rfl⟩

/-- The parentheses that are open behind a token, and the flag. -/
theorem token_flags (cfg : Config) (u : Token) (more : Bool) (st : State) :
    (st.token cfg u more).depth = u.nest st.depth ∧
      (st.token cfg u more).betweenOpen = if u.keyword? = some "BETWEEN" then true
        else if u.keyword? = some "AND" then false else st.betweenOpen := by
  cases u with
  | word w =>
    have hbroken : (st.broken cfg (.word w)).depth = st.depth ∧
        (st.broken cfg (.word w)).betweenOpen = st.betweenOpen := by
      rcases broken_cases cfg (.word w) st with heq | heq
      · exact heq ▸ flush_flags cfg.unit st
      · exact heq.symm ▸ ⟨rfl, rfl⟩
    refine ⟨hbroken.1, ?_⟩
    rw [← hbroken.2]
    show (if (Token.word w).keyword? == some "BETWEEN" then true
      else if (Token.word w).keyword? == some "AND" then false
      else (st.broken cfg (.word w)).betweenOpen) = _
    simp only [beq_iff_eq]
  | literal text => exact ⟨rfl, rfl⟩
  | lineComment text => exact flush_flags _ _
  | blockComment text => exact ⟨rfl, rfl⟩
  | punct c => exact punct_flags cfg c more st
  | operator op => exact ⟨rfl, rfl⟩

/-- Outside of parentheses the current line is empty behind the tokens that end their line. -/
theorem line_token (hu : u.IsToken) (hdepth : u.nest st.depth = 0) (more : Bool) :
    (st.token cfg u more).line = [] ↔ u.endsLine cfg.commaPosition = true := by
  have hwrite : ∀ (text : List Char) (spaced : Bool) (st' : State), Text.Solid text →
      (st'.write text spaced).line ≠ [] := by
    intro text spaced st' htext
    simp [State.write, htext.nonempty]
  cases u with
  | word w => exact iff_of_false (hwrite _ _ _ (solid_written hu cfg.keywordCase)) Bool.false_ne_true
  | literal text => exact iff_of_false (hwrite _ _ _ (solid_text hu)) Bool.false_ne_true
  | lineComment text => exact iff_of_true (line_flush _ _) rfl
  | blockComment text => exact iff_of_false (hwrite _ _ _ (solid_text hu)) Bool.false_ne_true
  | punct c =>
    have hc : ∀ (spaced : Bool) (st' : State), (st'.write [c] spaced).line ≠ [] :=
      fun spaced st' => hwrite _ spaced st' (solid_text hu)
    show (st.punct cfg c more).line = [] ↔ _
    unfold State.punct State.comma
    split_ifs with hcomma hsemi hopen hclose
    · obtain rfl : c = ',' := by simpa using (Bool.and_eq_true_iff.mp hcomma).1
      cases hposition : cfg.commaPosition with
      | after => exact iff_of_true (line_flush _ _) rfl
      | before => exact iff_of_false (hc _ _) Bool.false_ne_true
    · exact iff_of_true (line_flush _ _) (by simp [Token.endsLine, hsemi])
    · obtain rfl : c = '(' := by simpa using hopen
      exact iff_of_false (hc _ _) Bool.false_ne_true
    · obtain rfl : c = ')' := by simpa using hclose
      exact iff_of_false (hc _ _) Bool.false_ne_true
    · refine iff_of_false (hc _ _) fun hends => ?_
      -- A comma in parentheses would be left.
      have hlist : c = ',' := by
        have hor : c = ';' ∨ c = ',' ∧ cfg.commaPosition = .after := by
          simpa [Token.endsLine] using hends
        exact (hor.resolve_left (by simpa using hsemi)).1
      subst hlist
      have hzero : st.depth = 0 := hdepth
      exact hcomma (by simp [hzero])
  | operator op => exact iff_of_false (hwrite _ _ _ (solid_text hu)) Bool.false_ne_true

/-- Words open and close no parentheses. -/
theorem foldl_nest_words {us : List Token} (hus : ∀ v ∈ us, IsClauseWord v) (n : ℕ) :
    us.foldl Token.nest n = n := by
  induction us with
  | nil => rfl
  | cons v us ih =>
    obtain ⟨⟨w, rfl, -⟩, hrest⟩ := List.forall_mem_cons.mp hus
    exact ih hrest

/-! ## What the state remembers of the tokens -/

/-- What the state remembers of the tokens laid out so far: the parentheses that are open, and
whether a `BETWEEN` awaits its `AND`. Outside of parentheses the layout stands at the end of a
phrase or in none, and the current line is empty where a line ends. -/
structure Tracks (cfg : Config) (ts : List Token) (st : State) (us : List Token) : Prop where
  shows : Shows cfg ts st
  depth : st.depth = nesting ts
  betweenOpen : st.betweenOpen = true ↔ AwaitsAnd ts
  uncut : st.depth = 0 → Uncut ts us
  line : st.depth = 0 → (st.line = [] ↔ ts = [] ∨ EndsLine cfg.commaPosition ts)

/-- At the start there is nothing to remember. -/
theorem Tracks.initial (cfg : Config) (us : List Token) : Tracks cfg [] {} us := by
  refine ⟨.initial cfg, rfl, iff_of_false Bool.false_ne_true (by decide), ?_, ?_⟩
  · intro _ front _ _ hne hfront
    exact absurd (List.map_eq_nil_iff.mp (List.suffix_nil.mp hfront)) hne
  · exact fun _ => iff_of_true rfl (.inl rfl)

/-- A blank line between two statements changes nothing of it. -/
theorem Tracks.startStatement (h : Tracks cfg ts st us) : Tracks cfg ts st.startStatement us := by
  have hsame : st.startStatement.depth = st.depth ∧
      st.startStatement.betweenOpen = st.betweenOpen ∧ st.startStatement.line = st.line := by
    unfold State.startStatement
    split_ifs <;> exact ⟨rfl, rfl, rfl⟩
  obtain ⟨hdepth, hbetween, hline⟩ := hsame
  refine ⟨h.shows.startStatement.1, hdepth.trans h.depth, ?_, ?_, ?_⟩
  · rw [hbetween, h.betweenOpen]
  · rw [hdepth]
    exact h.uncut
  · rw [hdepth, hline]
    exact h.line

/-- A token that is laid out by itself ends no phrase. -/
theorem Tracks.not_cut (h : Tracks cfg ts st (u :: us))
    (hnone : st.depth = 0 → clauseLength (u :: us) = 0) (hdepth : u.nest st.depth = 0)
    {front back : List String} (hphrase : front ++ back ∈ clauses) (hne : front ≠ [])
    (hfront : front.map some <:+ (ts ++ [u]).map Token.keyword?)
    (hback : back.map some <+: us.map Token.keyword?) : False := by
  -- The last word of the phrase is a keyword, so the token opens and closes no parenthesis.
  have hst : st.depth = 0 := by
    obtain ⟨init, k, -, hkey, -⟩ := exists_concat_of_suffix hne hfront
    have hkeyword : u.isKeyword = true := by rw [Token.isKeyword, hkey, Option.isSome_some]
    obtain ⟨w, rfl, -⟩ := exists_word_of_isKeyword hkeyword
    exact hdepth
  exact (h.uncut hst).not_ended (hnone hst) hphrase hne hfront hback

/-- A token is remembered, -/
theorem Tracks.token (hunit : Text.allBlank cfg.unit = true) (h : Tracks cfg ts st (u :: us))
    (hended : st.ended = false) (hu : u.IsToken)
    (hnone : st.depth = 0 → clauseLength (u :: us) = 0) (more : Bool) :
    Tracks cfg (ts ++ [u]) (st.token cfg u more) us := by
  obtain ⟨hdepth, hbetween⟩ := token_flags cfg u more st
  refine ⟨h.shows.token hended hunit hu more, ?_, ?_, ?_, ?_⟩
  · rw [hdepth, h.depth, nesting, nesting, List.foldl_append]
    rfl
  · rw [hbetween, awaitsAnd_concat, ← h.betweenOpen]
    split_ifs with hbetween' hand
    · simp [hbetween']
    · simp [hand]
    · simp [hbetween', hand]
  · rw [hdepth]
    exact fun hzero front back hphrase hne hfront hback =>
      (h.not_cut hnone hzero hphrase hne hfront hback).elim
  · rw [hdepth]
    intro hzero
    have hnot : ¬∃ phrase ∈ clauses, phrase.map some <:+ (ts ++ [u]).map Token.keyword? := by
      rintro ⟨phrase, hphrase, hsuffix⟩
      have hwhole : phrase ++ [] ∈ clauses := by rwa [List.append_nil]
      exact h.not_cut hnone hzero hwhole (ne_nil_of_mem_clauses hphrase) hsuffix List.nil_prefix
    rw [line_token hu hzero, EndsLine, List.getLast?_concat, or_iff_left hnot]
    simp

/-- and so are the words of a phrase. -/
theorem Tracks.clause (hunit : Text.allBlank cfg.unit = true) {vs : List Token}
    (h : Tracks cfg ts st (u :: us ++ vs)) (hus : ∀ v ∈ u :: us, IsClauseWord v ∧ v.IsToken)
    (hdepth : st.depth = 0) (hlength : clauseLength (u :: us ++ vs) = (u :: us).length) :
    Tracks cfg (ts ++ u :: us) (st.clause cfg (u :: us)) vs := by
  obtain ⟨phrase, hmem, hkeys, -⟩ := exists_phrase_of_clauseLength hlength (List.cons_ne_nil _ _)
  have hflags : (st.clause cfg (u :: us)).depth = st.depth ∧
      (st.clause cfg (u :: us)).betweenOpen = st.betweenOpen := by
    have hlast := flush_flags cfg.unit (({ st.flush cfg.unit with indented := false } : State).write
      (Text.joinWith [' '] ((u :: us).map fun t => cased cfg.keywordCase t.text)) false)
    have hfirst := flush_flags cfg.unit st
    exact ⟨hlast.1.trans hfirst.1, hlast.2.trans hfirst.2⟩
  refine ⟨h.shows.clause hunit hus, ?_, ?_, ?_, ?_⟩
  · have hwords : ∀ v ∈ u :: us, IsClauseWord v := fun v hv => (hus v hv).1
    rw [hflags.1, h.depth, nesting, nesting, List.foldl_append, foldl_nest_words hwords]
  · rw [hflags.2, h.betweenOpen, awaitsAnd_append]
    intro v hv
    obtain ⟨k, hk, hkey⟩ := exists_word_of_phrase hmem hkeys hv
    obtain ⟨hand, -, hbetween⟩ := ne_of_mem_clauses hk
    rw [hkey]
    simpa using ⟨hand, hbetween⟩
  · exact fun _ => (h.uncut hdepth).clause hlength (List.cons_ne_nil _ _)
  · refine fun _ => iff_of_true (line_flush cfg.unit _) (.inr (.inr ⟨phrase, hmem, ?_⟩))
    rw [List.map_append, ← hkeys]
    exact List.suffix_append _ _

/-- A run comes to each token that is no word of a phrase, with the tokens in front of it tracked. -/
theorem Tracks.exists_run (hunit : Text.allBlank cfg.unit = true) {t : Token} (ht : t.Plain)
    {fuel : ℕ} {before after : List Token} (hfuel : (before ++ t :: after).length ≤ fuel)
    (hbefore : ∀ u ∈ before, u.IsToken) (h : Tracks cfg ts st (before ++ t :: after)) :
    ∃ fuel' st' more, Tracks cfg (ts ++ before) st' (t :: after) ∧ st'.ended = false ∧
      after.length ≤ fuel' ∧
      State.run cfg fuel st (before ++ t :: after) =
        State.run cfg fuel' (st'.token cfg t more) after := by
  have hrest : ∀ u, (t :: after).head? = some u → u.Plain := by
    rintro u ⟨⟩
    exact ht
  obtain ⟨fuel', st', hst', hfuel', hrun⟩ := exists_run_append (motive := Tracks cfg)
    (fun hst' hu hnone =>
      hst'.startStatement.token hunit hst'.shows.startStatement.2 hu hnone _)
    (fun hst' hwords hdepth hlength => hst'.startStatement.clause hunit hwords hdepth hlength)
    hfuel hbefore hrest h
  obtain ⟨fuel', rfl⟩ := Nat.exists_eq_succ_of_ne_zero (Nat.ne_zero_of_lt hfuel')
  have hnone : (if st'.startStatement.depth == 0 then clauseLength (t :: after) else 0) = 0 := by
    have hle : clauseLength ([] ++ t :: after) ≤ ([] : List Token).length :=
      le_of_clauseLength hrest rfl
    split_ifs
    · exact Nat.le_zero.mp hle
    · rfl
  exact ⟨fuel', st'.startStatement, _, hst'.startStatement, hst'.shows.startStatement.2,
    Nat.le_of_succ_le_succ hfuel', hrun.trans (run_token hnone)⟩

/-- An `AND` or an `OR` outside of parentheses is written on an empty line unless a `BETWEEN` awaits
its `AND`, and then only where a line ends. -/
theorem Tracks.line_broken (h : Tracks cfg ts st us) {t : Token}
    (hkey : t.keyword? = some "AND" ∨ t.keyword? = some "OR") (hdepth : nesting ts = 0) :
    (st.broken cfg t).line = [] ↔ ¬AwaitsAnd ts ∨ EndsLine cfg.commaPosition ts := by
  have hst : st.depth = 0 := h.depth.trans hdepth
  by_cases hawaits : AwaitsAnd ts
  · have hflag : st.betweenOpen = true := h.betweenOpen.mpr hawaits
    have hne : ts ≠ [] := by
      rintro rfl
      exact absurd hawaits (by decide)
    rw [broken, if_neg (by simp [hflag]), h.line hst, or_iff_right hne,
      or_iff_right (not_not_intro hawaits)]
  · have hflag : st.betweenOpen = false := by
      rw [← Bool.not_eq_true, h.betweenOpen]
      exact hawaits
    rw [broken, if_pos (by simp [hst, hflag, hkey])]
    exact iff_of_true (line_flush cfg.unit st) (.inl hawaits)

end State

/-- A condition stands where it should: the `AND` of a `BETWEEN` starts no line, unless a line
comment is in front of it, and any other condition starts one. -/
def WellPlaced (before : List Token) (t : Token) (front : List Char) : Prop :=
  (Completes before t → StartsLine front → ∃ text, before.getLast? = some (.lineComment text)) ∧
    (¬Completes before t → StartsLine front)

/-- Every `AND` and every `OR` outside of parentheses is found in the output behind the tokens in
front of it. It starts a line unless the last `AND` or `BETWEEN` in front of it is a `BETWEEN`,
wherever that stands, and then only where a line ends anyway. So the `AND` of a `BETWEEN` stands
well exactly if that last word is a `BETWEEN` and no line ends in front of it but that of a comment,
and any other condition exactly if that word is none or a line ends in front of it. -/
theorem tidy_breaks_conditions (settings : Settings) {s : List Char} {before after : List Token}
    {t : Token} (hread : Token.ofText s = .ok (before ++ t :: after))
    (hkey : t.keyword? = some "AND" ∨ t.keyword? = some "OR") (hdepth : nesting before = 0) :
    ∃ front back,
      tidy settings s = .ok (front ++ (written settings.keywordCase t ++ back)) ∧
      Text.Spaced (before.map (written settings.keywordCase)) front ∧
      (StartsLine front ↔ ¬AwaitsAnd before ∨ EndsLine settings.commaPosition before) ∧
      (WellPlaced before t front ↔
        (Completes before t →
          (AwaitsAnd before ∧ ¬EndsLine settings.commaPosition before) ∨
            ∃ text, before.getLast? = some (.lineComment text)) ∧
        (¬Completes before t → ¬AwaitsAnd before ∨ EndsLine settings.commaPosition before)) := by
  let cfg : Config := ⟨settings.indentUnit, settings.keywordCase, settings.commaPosition⟩
  have hunit : Text.allBlank cfg.unit = true := settings.allBlank_indentUnit
  have htokens := (Token.ofText_iff.mp hread).isToken
  have ht : t.IsToken := htokens t (by simp)
  have hbefore : ∀ u ∈ before, u.IsToken := fun u hu => htokens u (by simp [hu])
  obtain ⟨fuel, st, more, htracks, hended, hfuel, hrun⟩ :=
    (State.Tracks.initial cfg (before ++ t :: after)).exists_run hunit (plain_of_condition hkey)
      (Nat.le_refl _) hbefore
  rw [List.nil_append] at htracks
  have hkeyword : t.isKeyword = true := by
    rcases hkey with hkey | hkey <;> rw [Token.isKeyword, hkey] <;> rfl
  obtain ⟨w, rfl, -⟩ := exists_word_of_isKeyword hkeyword
  -- The token is written behind the tokens in front of it,
  have hpage : State.AtStart cfg before (st.broken cfg (.word w)) ∨
      State.OnLine cfg before (st.broken cfg (.word w)) := by
    rcases State.broken_cases cfg (.word w) st with heq | heq <;> rw [heq]
    · exact .inl htracks.shows.flush
    · exact htracks.shows.lines.imp And.left And.left
  obtain ⟨front, htext, hspaced, hstarts⟩ := State.exists_front hunit hpage ht
    (st.broken cfg (.word w)).spaced
  rw [htracks.line_broken hkey hdepth] at hstarts
  -- and there it stays.
  have hnext := htracks.shows.token hended hunit ht more
  obtain ⟨back, hback⟩ := hnext.prefix_run hunit hfuel fun u hu => htokens u (by simp [hu])
  have hlayout : layout cfg (before ++ .word w :: after) =
      front ++ (written settings.keywordCase (.word w) ++ back) := by
    rw [layout_eq_text, hrun, ← hback, State.text_token_word cfg.unit w more, htext,
      List.append_assoc]
  refine ⟨front, back, ?_, hspaced, hstarts, ?_⟩
  · simp only [tidy, hread, bind, Except.bind, pure, Except.pure]
    exact congrArg Except.ok hlayout
  · unfold WellPlaced
    rw [hstarts]
    refine and_congr_left' (imp_congr_right fun _ => ?_)
    rw [imp_iff_not_or, not_or, not_not]

/-- The `AND` behind the first bound stays on the line of its `BETWEEN`. -/
theorem tidy_breaks_conditions_between :
    ∃ before after,
      Token.ofText "select a from t where a between 1 and 5 and b = -1".toList =
        .ok (before ++ .word "and".toList :: after) ∧
      nesting before = 0 ∧ Completes before (.word "and".toList) ∧
      ∃ front back,
        tidy (Settings.resolve {} "sql")
            "select a from t where a between 1 and 5 and b = -1".toList =
          .ok (front ++ ("AND".toList ++ back)) ∧
        ¬StartsLine front ∧ WellPlaced before (.word "and".toList) front := by
  let before : List Token := [.word "select".toList, .word "a".toList, .word "from".toList,
    .word "t".toList, .word "where".toList, .word "a".toList, .word "between".toList,
    .literal ['1']]
  let after : List Token := [.literal ['5'], .word "and".toList, .word "b".toList, .operator ['='],
    .operator ['-'], .literal ['1']]
  have hread : Token.ofText "select a from t where a between 1 and 5 and b = -1".toList =
      .ok (before ++ .word "and".toList :: after) := by decide +kernel
  have hkey : (Token.word "and".toList).keyword? = some "AND" := by decide +kernel
  have hdepth : nesting before = 0 := by decide +kernel
  have hcompletes : Completes before (.word "and".toList) := by decide +kernel
  have hawaits : AwaitsAnd before := by decide +kernel
  have hends : ¬EndsLine (Settings.resolve {} "sql").commaPosition before := by decide +kernel
  obtain ⟨front, back, hout, -, hstarts, hplaced⟩ :=
    tidy_breaks_conditions (Settings.resolve {} "sql") hread (.inl hkey) hdepth
  refine ⟨before, after, hread, hdepth, hcompletes, front, back, hout, ?_, ?_⟩
  · rw [hstarts]
    exact fun h => h.elim (absurd hawaits) hends
  · exact hplaced.mpr ⟨fun _ => .inl ⟨hawaits, hends⟩, absurd hcompletes⟩

/-- An `AND` in parentheses is taken for the one of the `BETWEEN` in front of it, and then the one
of the `BETWEEN` starts a line. -/
theorem tidy_breaks_between :
    ∃ before after,
      Token.ofText "select a from t where a between (b and c) and 5".toList =
        .ok (before ++ .word "and".toList :: after) ∧
      nesting before = 0 ∧ Completes before (.word "and".toList) ∧
      (∀ text, before.getLast? ≠ some (.lineComment text)) ∧
      tidy (Settings.resolve {} "sql") "select a from t where a between (b and c) and 5".toList =
        .ok "SELECT\n  a\nFROM\n  t\nWHERE\n  a BETWEEN (b AND c)\n  AND 5\n".toList := by
  refine ⟨[.word "select".toList, .word "a".toList, .word "from".toList, .word "t".toList,
    .word "where".toList, .word "a".toList, .word "between".toList, .punct '(', .word "b".toList,
    .word "and".toList, .word "c".toList, .punct ')'], [.literal ['5']], ?_⟩
  refine ⟨by decide +kernel, by decide +kernel, by decide +kernel, ?_, by decide +kernel⟩
  simp

end CodeTidy.Sql
