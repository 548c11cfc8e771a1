import CodeTidy.Proofs.Sql.Conservation
import CodeTidy.Proofs.Sql.Phrases
import CodeTidy.Proofs.Text.Respacing

/-!
# What is written stays

Every step of the layout goes on with the text written so far: the current line never ends in white
space, so nothing is lost when it is finished (`State.Grows`). So a token is found in the output
behind the tokens in front of it, and whether it starts a line is decided when it is written
(`State.exists_front`).
-/

namespace CodeTidy.Sql

open Token

/-- What follows a text starts a line: behind the last line break is nothing but white space. -/
def StartsLine (front : List Char) : Prop :=
  Text.allBlank (front.reverse.takeWhile (· != '\n')) = true

namespace State

variable {cfg : Config} {ts : List Token} {st st' : State} {u : Token}

/-! ## The text written so far -/

/-- The current line does not end in white space. -/
def Neat (st : State) : Prop := ∀ c, st.line.head? = some c → Text.isBlank c = false

/-- What is on the page in one state stays in front in another, whose line does not end in white
space. -/
structure Grows (unit : List Char) (st st' : State) : Prop where
  text : st.text unit <+: st'.text unit
  neat : st'.Neat

/-- Growing goes on. -/
theorem Grows.trans {unit : List Char} {st'' : State} (h : Grows unit st st')
    (h' : Grows unit st' st'') : Grows unit st st'' :=
  ⟨h.text.trans h'.text, h'.neat⟩

/-- What is not on the page does not matter, nor does the indentation of an empty line. -/
theorem Grows.of_eq {unit : List Char} {st'' : State} (h : Grows unit st st')
    (hdone : st''.done = st'.done) (hline : st''.line = st'.line)
    (hindented : st'.line ≠ [] → st''.indented = st'.indented) : Grows unit st st'' := by
  refine ⟨?_, by rw [Neat, hline]; exact h.neat⟩
  have htext : st''.text unit = st'.text unit := by
    rw [State.text, hdone, hline, State.text]
    cases hst' : st'.line with
    | nil => rfl
    | cons c rest => rw [hindented (by simp [hst'])]
  rw [htext]
  exact h.text

/-- A text is written behind what is on the line, perhaps with a blank between. -/
theorem exists_text_write (unit : List Char) (st : State) {text : List Char} (hne : text ≠ [])
    (spaced : Bool) : ∃ gap : List Char, (gap = [] ∨ gap = [' ']) ∧
      (st.write text spaced).line = text.reverse ++ (gap ++ st.line) ∧
      (st.write text spaced).text unit =
        Text.lined st.done ++ ((if st.indented then unit else []) ++ (st.line.reverse ++ gap)) ++
          text := by
  obtain ⟨gap, hgap, hline⟩ : ∃ gap : List Char, (gap = [] ∨ gap = [' ']) ∧
      (st.write text spaced).line = text.reverse ++ (gap ++ st.line) := by
    unfold State.write
    split_ifs
    · exact ⟨[' '], .inr rfl, rfl⟩
    · exact ⟨[], .inl rfl, rfl⟩
  refine ⟨gap, hgap, hline, ?_⟩
  have hreverse : gap.reverse = gap := by rcases hgap with rfl | rfl <;> rfl
  rw [State.text, hline, if_neg (by simp [hne])]
  show Text.lined st.done ++ _ = _
  simp only [List.reverse_append, List.reverse_reverse, hreverse, List.append_assoc]
  rfl

/-- Writing grows the text. -/
theorem grows_write (unit : List Char) (st : State) {text : List Char} (htext : Text.Solid text)
    (spaced : Bool) : Grows unit st (st.write text spaced) := by
  obtain ⟨gap, -, hline, hall⟩ := exists_text_write unit st htext.nonempty spaced
  refine ⟨?_, ?_⟩
  · rw [hall, State.text, List.append_assoc, List.prefix_append_right_inj]
    cases st.line with
    | nil => exact List.nil_prefix
    | cons c rest =>
      refine ⟨gap ++ text, ?_⟩
      simp
  · intro c hc
    rw [hline, List.head?_append_of_ne_nil _ (by simpa using htext.nonempty),
      List.head?_reverse] at hc
    exact htext.trimmed.last c hc

/-- So does finishing a line. -/
theorem grows_flush (unit : List Char) (h : st.Neat) : Grows unit st (st.flush unit) := by
  cases hline : st.line with
  | nil =>
    rw [flush_of_empty hline]
    exact ⟨List.prefix_rfl, h⟩
  | cons c rest =>
    rw [flush_of_line hline (h c (by simp [hline]))]
    refine ⟨⟨['\n'], ?_⟩, by simp [Neat]⟩
    simp [text, hline, Text.lined_cons]

/-- A token is solid, -/
theorem solid_text (hu : u.IsToken) : Text.Solid u.text := by
  obtain ⟨d, tail, htext, hd⟩ := hu.exists_head
  refine ⟨by rw [htext]; exact List.cons_ne_nil _ _, ?_, fun c hc => hu.last_nonblank c hc⟩
  rw [htext]
  rintro c ⟨⟩
  exact hd

/-- also as it is written. -/
theorem solid_written (hu : u.IsToken) (wanted : KeywordCase) : Text.Solid (written wanted u) := by
  rw [← text_recased]
  exact solid_text hu.recased

/-- The state in which a word is written: an `AND` or an `OR` may finish the line in front of it. -/
def broken (cfg : Config) (t : Token) (st : State) : State :=
  if st.depth == 0 && (t.keyword? == some "AND" || t.keyword? == some "OR") && !st.betweenOpen then
    st.flush cfg.unit
  else st

/-- The line is finished or left as it is. -/
theorem broken_cases (cfg : Config) (t : Token) (st : State) :
    st.broken cfg t = st.flush cfg.unit ∨ st.broken cfg t = st := by
  unfold broken
  split_ifs
  · exact .inl rfl
  · exact .inr rfl

/-- What is on the page once a word is written. -/
theorem text_token_word (unit w : List Char) (more : Bool) :
    (st.token cfg (.word w) more).text unit =
      ((st.broken cfg (.word w)).write (written cfg.keywordCase (.word w))
        (st.broken cfg (.word w)).spaced).text unit :=
  rfl

/-- Laying out a comma or another mark grows the text. -/
theorem grows_punct (hneat : st.Neat) {c : Char} (hc : IsToken (.punct c)) (more : Bool) :
    Grows cfg.unit st (st.punct cfg c more) := by
  have hwrite : ∀ (st' : State) (spaced : Bool), Grows cfg.unit st' (st'.write [c] spaced) :=
    fun st' spaced => grows_write cfg.unit st' (solid_text hc) spaced
  have hflush := (hwrite st false).trans (grows_flush cfg.unit (hwrite st false).neat)
  unfold State.punct
  split_ifs with hcomma
  · obtain rfl : c = ',' := by simpa using (Bool.and_eq_true_iff.mp hcomma).1
    unfold State.comma
    cases cfg.commaPosition with
    | after => exact hflush
    | before => exact (grows_flush cfg.unit hneat).trans (hwrite _ false)
  · exact hflush.of_eq rfl rfl fun _ => rfl
  · exact (hwrite st _).of_eq rfl rfl fun _ => rfl
  · exact (hwrite st _).of_eq rfl rfl fun _ => rfl
  · exact (hwrite st _).of_eq rfl rfl fun _ => rfl

/-- So does any token that opens no clause, -/
theorem grows_token (hneat : st.Neat) (hu : u.IsToken) (more : Bool) :
    Grows cfg.unit st (st.token cfg u more) := by
  have hwrite : ∀ (st' : State) (spaced : Bool), Grows cfg.unit st' (st'.write u.text spaced) :=
    fun st' spaced => grows_write cfg.unit st' (solid_text hu) spaced
  cases u with
  | word w =>
    have hbroken : Grows cfg.unit st (st.broken cfg (.word w)) := by
      rcases broken_cases cfg (.word w) st with heq | heq
      · exact heq ▸ grows_flush cfg.unit hneat
      · exact heq.symm ▸ ⟨List.prefix_rfl, hneat⟩
    have hword := hbroken.trans
      (grows_write cfg.unit _ (solid_written hu cfg.keywordCase) (st.broken cfg (.word w)).spaced)
    exact hword.of_eq rfl rfl fun _ => rfl
  | literal text => exact (hwrite st _).of_eq rfl rfl fun _ => rfl
  | lineComment text =>
    have hline := (hwrite st true).trans (grows_flush cfg.unit (hwrite st true).neat)
    exact hline.of_eq rfl rfl fun _ => rfl
  | blockComment text => exact (hwrite st true).of_eq rfl rfl fun _ => rfl
  | punct c => exact (grows_punct hneat hu more).of_eq rfl rfl fun _ => rfl
  | operator op => exact (hwrite st _).of_eq rfl rfl fun _ => rfl

/-- and so does the phrase of a clause. -/
theorem grows_clause (hneat : st.Neat) {us : List Token} (hne : us ≠ [])
    (hus : ∀ v ∈ us, IsClauseWord v ∧ v.IsToken) : Grows cfg.unit st (st.clause cfg us) := by
  have hmargin : Grows cfg.unit st { st.flush cfg.unit with indented := false } :=
    (grows_flush cfg.unit hneat).of_eq rfl rfl (absurd (line_flush cfg.unit st))
  have hsolid : Text.Solid (Text.joinWith [' '] (us.map fun t => cased cfg.keywordCase t.text)) := by
    refine Text.solid_joinWith [' '] ?_ (by simpa using hne)
    rintro _ hmem
    obtain ⟨v, hv, rfl⟩ := List.mem_map.mp hmem
    obtain ⟨⟨_, -, hkeyword⟩, htoken⟩ := hus v hv
    have hwritten := solid_written htoken cfg.keywordCase
    rwa [written, if_pos hkeyword] at hwritten
  have hwrite := hmargin.trans (grows_write cfg.unit _ hsolid false)
  exact (hwrite.trans (grows_flush cfg.unit hwrite.neat)).of_eq rfl rfl
    (absurd (line_flush cfg.unit _))

/-- The invariant of the layout keeps white space off the end of the line. -/
theorem Shows.neat (h : Shows cfg ts st) : st.Neat := by
  rcases h.lines with ⟨hstart, -⟩ | ⟨honline, -⟩
  · simp [Neat, hstart.line]
  · obtain ⟨c, rest, hline, hc⟩ := honline.line
    simp [Neat, hline, hc]

/-- A blank line between two statements grows the text. -/
theorem Shows.grows_startStatement (h : Shows cfg ts st) :
    Grows cfg.unit st st.startStatement := by
  unfold State.startStatement
  split_ifs with hended
  · refine ⟨⟨['\n'], ?_⟩, h.neat⟩
    simp [text, h.ended hended, Text.lined_cons]
  · exact ⟨List.prefix_rfl, h.neat⟩

/-- What is written stays in front when further tokens are laid out. -/
theorem Shows.prefix_run (hunit : Text.allBlank cfg.unit = true) (h : Shows cfg ts st)
    {fuel : ℕ} {us : List Token} (hfuel : us.length ≤ fuel) (hus : ∀ u ∈ us, u.IsToken) :
    st.text cfg.unit <+: ((State.run cfg fuel st us).flush cfg.unit).text cfg.unit := by
  have hfuel' : (us ++ ([] : List Token)).length ≤ fuel := by rwa [List.append_nil]
  have hrun := exists_run_append
    (motive := fun ts' st' _ => Shows cfg ts' st' ∧ st.text cfg.unit <+: st'.text cfg.unit)
    (fun hst' hu _ => by
      obtain ⟨hshows, hpre⟩ := hst'
      obtain ⟨hstart, hended⟩ := hshows.startStatement
      exact ⟨hstart.token hended hunit hu _, hpre.trans
        (hshows.grows_startStatement.trans (grows_token hstart.neat hu _)).text⟩)
    (fun hst' hwords _ _ => by
      obtain ⟨hshows, hpre⟩ := hst'
      obtain ⟨hstart, -⟩ := hshows.startStatement
      exact ⟨hstart.clause hunit hwords, hpre.trans
        (hshows.grows_startStatement.trans
          (grows_clause hstart.neat (List.cons_ne_nil _ _) hwords)).text⟩)
    hfuel' hus nofun ⟨h, List.prefix_rfl⟩
  obtain ⟨fuel', st', ⟨hshows, hpre⟩, -, hrun⟩ := hrun
  have hend : State.run cfg fuel' st' [] = st' := by
    cases fuel' <;> rfl
  rw [List.append_nil, hend] at hrun
  rw [hrun]
  exact hpre.trans (grows_flush cfg.unit hshows.neat).text

/-! ## Where a token stands -/

/-- White space behind a line break starts a line. -/
theorem startsLine_lined {margin : List Char} (h : Text.allBlank margin = true)
    (done : List (List Char)) : StartsLine (Text.lined done ++ margin) := by
  -- Whatever is above ends in a line break, where the reading from the end stops.
  have hstop : ∀ above : List Char, above.takeWhile (· != '\n') = [] →
      ∀ c ∈ (margin.reverse ++ above).takeWhile (· != '\n'), c ∈ margin := by
    intro above habove c hc
    rw [List.takeWhile_append, habove, List.append_nil] at hc
    split_ifs at hc
    · exact List.mem_reverse.mp hc
    · exact List.mem_reverse.mp ((List.takeWhile_sublist _).mem hc)
  unfold StartsLine
  rw [List.reverse_append]
  refine Text.allBlank_iff.mpr fun c hc => Text.allBlank_iff.mp h c (hstop _ ?_ c hc)
  cases done with
  | nil => rfl
  | cons line done =>
    rw [Text.lined_cons]
    simp

/-- A token behind another one on its line does not start a line. -/
theorem not_startsLine {c : Char} (hc : Text.isBlank c = false) {gap : List Char}
    (hgap : '\n' ∉ gap) (front : List Char) : ¬StartsLine (front ++ c :: gap) := by
  intro h
  have hline : ∀ d ∈ gap.reverse ++ [c], (d != '\n') = true := by
    intro d hd
    rcases List.mem_append.mp hd with hd | hd
    · exact bne_iff_ne.mpr fun heq => hgap (heq ▸ List.mem_reverse.mp hd)
    · obtain rfl := List.mem_singleton.mp hd
      exact bne_iff_ne.mpr fun heq => absurd (heq ▸ hc) (by decide)
  unfold StartsLine at h
  rw [List.reverse_append, List.reverse_cons, List.takeWhile_append_of_pos hline] at h
  rw [Text.allBlank_iff.mp h c (by simp)] at hc
  exact Bool.noConfusion hc

/-- A token is written behind those in front of it. -/
theorem exists_front (hunit : Text.allBlank cfg.unit = true)
    (h : AtStart cfg ts st ∨ OnLine cfg ts st) (hu : u.IsToken) (spaced : Bool) :
    ∃ front, (st.write (written cfg.keywordCase u) spaced).text cfg.unit =
        front ++ written cfg.keywordCase u ∧
      Text.Spaced (ts.map (written cfg.keywordCase)) front ∧
      (StartsLine front ↔ st.line = []) := by
  have hindent : Text.allBlank (if st.indented then cfg.unit else []) = true := by
    split_ifs
    · exact hunit
    · rfl
  obtain ⟨gap, hgap, -, htext⟩ := exists_text_write cfg.unit st
    (solid_written hu cfg.keywordCase).nonempty spaced
  have hblank : Text.allBlank gap = true := by rcases hgap with rfl | rfl <;> decide
  refine ⟨_, htext, ?_⟩
  rcases h with hstart | honline
  · -- At the start of a line all that is in front is the indentation.
    obtain ⟨s, above, hdone, hlaid, habove, -⟩ := hstart.shown
    simp only [State.text, hstart.line, List.isEmpty_nil, if_true, List.append_nil] at hdone
    rw [hstart.line, List.reverse_nil, List.nil_append]
    refine ⟨?_, iff_of_true (startsLine_lined (Text.allBlank_append hindent hblank) _) rfl⟩
    rw [hdone]
    exact (hlaid.spaced.append_blank habove).append_blank (Text.allBlank_append hindent hblank)
  · -- On a line the last token is in front.
    obtain ⟨c, rest, hline, hc⟩ := honline.line
    have hfront : Text.lined st.done ++
        ((if st.indented then cfg.unit else []) ++ (st.line.reverse ++ gap)) =
          st.text cfg.unit ++ gap := by
      simp [State.text, hline]
    have hbreak : '\n' ∉ gap := by rcases hgap with rfl | rfl <;> decide
    refine ⟨hfront ▸ honline.shown.spaced.append_blank hblank, iff_of_false ?_ (by simp [hline])⟩
    have hlast := not_startsLine hc hbreak
      (Text.lined st.done ++ ((if st.indented then cfg.unit else []) ++ rest.reverse))
    simpa [hline] using hlast

end State

end CodeTidy.Sql
