import CodeTidy.Proofs.Sql.Spelling
import CodeTidy.Proofs.Text.Strip

/-!
# What the layout writes

The invariant of the layout is `Shows`: the text written so far spells the tokens laid out so far.
Either it ends with the last of them, on the current line, or a line break follows it. It tells
when a token can fuse with the last one: at the start of a line it cannot, and on a line it can
only if it hugs the last token. One lemma for each kind of token says that laying it out keeps the
invariant, and `layout_spells` follows by induction on the tokens.
-/

namespace CodeTidy.Sql

open Token

namespace State

/-- The text written so far, for a unit of indentation. -/
def text (unit : List Char) (st : State) : List Char :=
  Text.lined st.done ++
    if st.line.isEmpty then [] else (if st.indented then unit else []) ++ st.line.reverse

/-- The text written so far spells some tokens, and a line break follows the last of them. -/
structure AtStart (cfg : Config) (ts : List Token) (st : State) : Prop where
  line : st.line = []
  shown : ∃ s gap, st.text cfg.unit = s ++ gap ∧ Laid cfg.keywordCase ts s ∧
    Text.allBlank gap = true ∧ (ts ≠ [] → ∃ gap', gap = '\n' :: gap')

/-- The text written so far spells some tokens, and ends with the last of them. -/
structure OnLine (cfg : Config) (ts : List Token) (st : State) : Prop where
  line : ∃ c rest, st.line = c :: rest ∧ Text.isBlank c = false
  shown : Laid cfg.keywordCase ts (st.text cfg.unit)
  nonempty : ts ≠ []

variable {cfg : Config} {ts : List Token} {st : State} {u : Token}

/-! ## Flushing a line -/

/-- There is nothing to finish on an empty line. -/
theorem flush_of_empty (h : st.line = []) (unit : List Char) : st.flush unit = st := by
  unfold flush
  rw [h]
  exact congrArg (fun line => { st with line }) h.symm

/-- A line that does not end in white space is finished as it is. -/
theorem flush_of_line {c : Char} {rest : List Char} (h : st.line = c :: rest)
    (hc : Text.isBlank c = false) (unit : List Char) :
    st.flush unit = { st with
      done := ((if st.indented then unit else []) ++ st.line.reverse) :: st.done
      line := [] } := by
  unfold flush
  have hdrop : st.line.dropWhile Text.isBlank = st.line := by
    rw [h, List.dropWhile_cons_of_neg (by simp [hc])]
  rw [hdrop, if_neg (by simp [h])]

/-- Behind a finished line stands a line break. -/
theorem OnLine.flush (h : OnLine cfg ts st) : AtStart cfg ts (st.flush cfg.unit) := by
  obtain ⟨c, rest, hline, hc⟩ := h.line
  rw [flush_of_line hline hc]
  refine ⟨rfl, st.text cfg.unit, ['\n'], ?_, h.shown, by decide, fun _ => ⟨[], rfl⟩⟩
  simp [text, hline, Text.lined_cons]

/-- Nothing changes at the start of a line. -/
theorem AtStart.flush (h : AtStart cfg ts st) : AtStart cfg ts (st.flush cfg.unit) := by
  rw [flush_of_empty h.line]
  exact h

/-- Behind a finished line stands an empty one. -/
theorem line_flush (unit : List Char) (st : State) : (st.flush unit).line = [] := by
  unfold flush
  dsimp only
  split_ifs <;> rfl

/-- Finishing a line leaves everything else alone. -/
theorem flush_rest (unit : List Char) (st : State) :
    (st.flush unit).prev = st.prev ∧ (st.flush unit).ended = st.ended ∧
      (st.flush unit).indented = st.indented := by
  unfold flush
  dsimp only
  split_ifs <;> exact ⟨rfl, rfl, rfl⟩

/-! ## Writing a token -/

/-- The line behind a token written does not end in white space. -/
theorem exists_line_write (hu : u.IsToken) (wanted : KeywordCase) (line : List Char) :
    ∃ c rest, (written wanted u).reverse ++ line = c :: rest ∧ Text.isBlank c = false := by
  have hu' : (u.recased wanted).IsToken := hu.recased
  obtain ⟨d, tail, htext, -⟩ := hu'.exists_head
  have hlast := hu'.last_nonblank
  rw [text_recased] at htext hlast
  cases hr : (written wanted u).reverse with
  | nil => simp [htext] at hr
  | cons c rest =>
    refine ⟨c, rest ++ line, rfl, hlast c ?_⟩
    rw [List.getLast?_eq_head?_reverse, hr]
    rfl

/-- A token at the start of a line stands behind the line break and the indentation. -/
theorem AtStart.write (h : AtStart cfg ts st) (hunit : Text.allBlank cfg.unit = true)
    (hu : u.IsToken) (hmeets : ¬Meets ts u) (spaced : Bool) :
    OnLine cfg (ts ++ [u]) (st.write (written cfg.keywordCase u) spaced) := by
  obtain ⟨s, gap, htext, hlaid, hgap, hbreak⟩ := h.shown
  obtain ⟨c, rest, hline, hc⟩ := exists_line_write hu cfg.keywordCase []
  have hwrite : (st.write (written cfg.keywordCase u) spaced).line = c :: rest := by
    simp [State.write, h.line, ← hline]
  -- All that stands between the last line break and the token is the indentation.
  have hindent : Text.allBlank (if st.indented then cfg.unit else []) = true := by
    split_ifs
    · exact hunit
    · rfl
  have hall : (st.write (written cfg.keywordCase u) spaced).text cfg.unit
      = s ++ (gap ++ if st.indented then cfg.unit else []) ++ written cfg.keywordCase u := by
    have hdone : Text.lined st.done = s ++ gap := by
      rw [← htext]
      simp [text, h.line]
    have hchars : (c :: rest).reverse = written cfg.keywordCase u := by simp [← hline]
    rw [text, hwrite, hchars]
    show Text.lined st.done ++ (_ ++ _) = _
    rw [hdone]
    simp [State.write]
  refine ⟨⟨c, rest, hwrite, hc⟩, ?_, by simp⟩
  rw [hall]
  refine hlaid.snoc ?_
  by_cases hts : ts = []
  · subst hts
    exact .first (Text.allBlank_append hgap hindent)
  · obtain ⟨gap', rfl⟩ := hbreak hts
    exact .line (Text.allBlank_append (Text.allBlank_of_cons hgap) hindent) hmeets

/-- A token on a line stands behind the blank, if there is one. -/
theorem OnLine.write (h : OnLine cfg ts st) (hu : u.IsToken) (spaced : Bool)
    (hgap : Gap ts (if spaced && !st.glued then [' '] else []) u) :
    OnLine cfg (ts ++ [u]) (st.write (written cfg.keywordCase u) spaced) := by
  obtain ⟨d, before, hbefore, -⟩ := h.line
  have hwrite : (st.write (written cfg.keywordCase u) spaced).line
      = (written cfg.keywordCase u).reverse
        ++ ((if spaced && !st.glued then [' '] else []) ++ st.line) := by
    unfold State.write
    rw [hbefore]
    cases spaced <;> cases st.glued <;> rfl
  obtain ⟨c, rest, hline, hc⟩ := exists_line_write hu cfg.keywordCase
    ((if spaced && !st.glued then [' '] else []) ++ st.line)
  refine ⟨⟨c, rest, hwrite.trans hline, hc⟩, ?_, by simp⟩
  have hall : (st.write (written cfg.keywordCase u) spaced).text cfg.unit
      = st.text cfg.unit ++ (if spaced && !st.glued then [' '] else [])
        ++ written cfg.keywordCase u := by
    rw [text, hwrite, hline, text, hbefore]
    show Text.lined st.done ++ ((if st.indented then cfg.unit else []) ++ (c :: rest).reverse) = _
    rw [← hline, hbefore]
    have hgapReverse : ((if spaced && !st.glued then [' '] else []) : List Char).reverse
        = if spaced && !st.glued then [' '] else [] := by
      split_ifs <;> rfl
    simp only [List.reverse_append, List.reverse_reverse, hgapReverse, List.isEmpty_cons,
      Bool.false_eq_true, if_false, List.append_assoc]
  rw [hall]
  exact h.shown.snoc hgap

/-! ## The invariant -/

/-- The last token takes the next one without a blank. -/
def Glues (ts : List Token) : Prop :=
  ∃ before t, ts = before ++ [t] ∧ (t = .punct '.' ∨ Signs before.getLast? t)

/-- The text written so far spells the tokens laid out so far. -/
structure Shows (cfg : Config) (ts : List Token) (st : State) : Prop where
  prev : st.prev = ts.getLast?
  ended : st.ended = true → st.line = []
  lines : (AtStart cfg ts st ∧ ∀ u, ¬Meets ts u) ∨
    (OnLine cfg ts st ∧ (∀ text, ts.getLast? ≠ some (.lineComment text)) ∧
      (st.glued = true ↔ Glues ts))

/-- A token that is not glued to the last one fuses with it only as the dot behind a number. -/
theorem not_meets_of_not_glues (hglues : ¬Glues ts) (hdot : u ≠ .punct '.') : ¬Meets ts u := by
  rintro ⟨before, t, rfl, hfuses⟩
  cases hfuses with
  | number => exact hdot rfl
  | sign hsigns => exact hglues ⟨before, _, rfl, .inr hsigns⟩
  | dashes hsigns => exact hglues ⟨before, _, rfl, .inr hsigns⟩

/-- A token is written on the current line, or at its start. It can do without a blank if it hugs
the last token. -/
theorem Shows.write (h : Shows cfg ts st) (hunit : Text.allBlank cfg.unit = true)
    (hu : u.IsToken) (spaced : Bool) (hdot : spaced = true → u ≠ .punct '.')
    (hhugs : spaced = false → ∀ before t, ts = before ++ [t] →
      (∀ text, t ≠ .lineComment text) → Hugs before.getLast? t u) :
    OnLine cfg (ts ++ [u]) (st.write (written cfg.keywordCase u) spaced) := by
  rcases h.lines with ⟨hstart, hmeets⟩ | ⟨honline, hcomment, hglued⟩
  · exact hstart.write hunit hu (hmeets u) spaced
  · refine honline.write hu spaced ?_
    obtain ⟨before, t, rfl⟩ := (List.eq_nil_or_concat' ts).resolve_left honline.nonempty
    by_cases hglues : Glues (before ++ [t])
    · rw [hglued.mpr hglues, if_neg (by simp)]
      obtain ⟨before', t', heq, hlast⟩ := hglues
      rw [heq]
      refine .none ?_
      rcases hlast with rfl | hsigns
      · exact .dotted
      · exact .signed hsigns
    · have hnot : st.glued = false := by
        rw [Bool.eq_false_iff]
        exact fun hg => hglues (hglued.mp hg)
      cases spaced with
      | true =>
        rw [hnot]
        exact .space (not_meets_of_not_glues hglues (hdot rfl)) hcomment
      | false =>
        refine .none (hhugs rfl before t rfl ?_)
        rintro text rfl
        exact hcomment text (by simp)

/-- Behind the current line a line starts. -/
theorem Shows.flush (h : Shows cfg ts st) : AtStart cfg ts (st.flush cfg.unit) := by
  rcases h.lines with ⟨hstart, -⟩ | ⟨honline, -⟩
  · exact hstart.flush
  · exact honline.flush

/-- A token that fuses with nothing is written at the start of a line behind the current one. -/
theorem Shows.flush_write (h : Shows cfg ts st) (hunit : Text.allBlank cfg.unit = true)
    (hu : u.IsToken) (hmeets : ¬Meets ts u) (spaced : Bool) :
    OnLine cfg (ts ++ [u]) ((st.flush cfg.unit).write (written cfg.keywordCase u) spaced) :=
  h.flush.write hunit hu hmeets spaced

/-- The invariant behind a token that stays on its line. -/
theorem OnLine.shows (h : OnLine cfg (ts ++ [u]) st) (hended : st.ended = false)
    (hline : ∀ text, u ≠ .lineComment text)
    (hglued : st.glued = true ↔ u = .punct '.' ∨ Signs ts.getLast? u) :
    Shows cfg (ts ++ [u]) { st with prev := some u } := by
  refine ⟨by simp, fun he => absurd he (by simp [hended]),
    .inr ⟨⟨h.line, h.shown, h.nonempty⟩, ?_, ?_⟩⟩
  · intro text htext
    rw [List.getLast?_concat] at htext
    exact hline text (Option.some.inj htext)
  · rw [show ({ st with prev := some u } : State).glued = st.glued from rfl, hglued]
    constructor
    · exact fun hlast => ⟨ts, u, rfl, hlast⟩
    · rintro ⟨before, t, heq, hlast⟩
      obtain ⟨rfl, ht⟩ := List.append_inj' heq rfl
      obtain rfl := List.singleton_inj.mp ht
      exact hlast

/-- The invariant behind a token whose line is finished. -/
theorem AtStart.shows (h : AtStart cfg (ts ++ [u]) st)
    (hmeets : ∀ v, ¬Fuses ts.getLast? u v) : Shows cfg (ts ++ [u]) { st with prev := some u } :=
  ⟨by simp, fun _ => h.line, .inl ⟨⟨h.line, h.shown⟩, fun v hv => hmeets v (meets_snoc.mp hv)⟩⟩

/-! ## One token -/

/-- What is on the page does not depend on the rest of the state. -/
theorem OnLine.of_eq {st' : State} (h : OnLine cfg ts st) (hdone : st'.done = st.done)
    (hline : st'.line = st.line) (hindented : st'.indented = st.indented) : OnLine cfg ts st' := by
  refine ⟨by rw [hline]; exact h.line, ?_, h.nonempty⟩
  have htext : st'.text cfg.unit = st.text cfg.unit := by
    unfold text
    rw [hdone, hline, hindented]
  rw [htext]
  exact h.shown

/-- Nor do finished lines. -/
theorem AtStart.of_eq {st' : State} (h : AtStart cfg ts st) (hdone : st'.done = st.done)
    (hline : st'.line = st.line) : AtStart cfg ts st' := by
  refine ⟨hline.trans h.line, ?_⟩
  have htext : st'.text cfg.unit = st.text cfg.unit := by
    unfold text
    rw [hdone, hline, h.line]
    rfl
  rw [htext]
  exact h.shown

/-- A token that follows its predecessor without a blank hugs it. -/
theorem Shows.hugs (h : Shows cfg ts st) (hspaced : st.spaced = false) :
    ∀ before t, ts = before ++ [t] → (∀ text, t ≠ .lineComment text) →
      Hugs before.getLast? t u := by
  rintro before t rfl -
  unfold spaced at hspaced
  rw [h.prev, List.getLast?_concat] at hspaced
  by_cases hopened : t = .punct '('
  · subst hopened
    exact .opened
  · have hdotted : t = .punct '.' := by simpa [hopened] using hspaced
    subst hdotted
    exact .dotted

/-- Punctuation hugs any token. -/
theorem hugs_punct {c : Char} (before : List Token) (t : Token) (_ : ts = before ++ [t])
    (ht : ∀ text, t ≠ .lineComment text) : Hugs before.getLast? t (.punct c) := .punct ht

/-- A word fuses with none of the tokens in front of it. -/
theorem not_meets_word {w : List Char} (hw : IsToken (.word w)) : ¬Meets ts (.word w) := by
  rintro ⟨before, t, -, hfuses⟩
  exact not_fuses_word hw hfuses

/-- Laying out a word keeps the invariant. -/
theorem Shows.word (h : Shows cfg ts st) (hended : st.ended = false)
    (hunit : Text.allBlank cfg.unit = true) {w : List Char} (hu : IsToken (.word w)) :
    Shows cfg (ts ++ [.word w]) { st.word cfg (.word w) with prev := some (.word w) } := by
  -- The word is written on the line at hand or, if that is finished first, on the next.
  have hwritten : ∀ flushes : Bool, OnLine cfg (ts ++ [.word w])
      ((if flushes then st.flush cfg.unit else st).write (written cfg.keywordCase (.word w))
        (if flushes then st.flush cfg.unit else st).spaced) ∧
      (if flushes then st.flush cfg.unit else st).ended = false := by
    intro flushes
    cases flushes with
    | false => exact ⟨h.write hunit hu _ (fun _ => by simp) h.hugs, hended⟩
    | true =>
      exact ⟨h.flush_write hunit hu (not_meets_word hu) _, (flush_rest _ _).2.1.trans hended⟩
  obtain ⟨honline, hended'⟩ := hwritten (st.depth == 0 &&
    ((Token.word w).keyword? == some "AND" || (Token.word w).keyword? == some "OR") &&
      !st.betweenOpen)
  refine OnLine.shows (honline.of_eq rfl rfl rfl) hended' (by simp) ?_
  simp [Signs, State.word, State.write]

/-- Laying out a literal keeps the invariant. -/
theorem Shows.literal (h : Shows cfg ts st) (hended : st.ended = false)
    (hunit : Text.allBlank cfg.unit = true) {text : List Char} (hu : IsToken (.literal text)) :
    Shows cfg (ts ++ [.literal text])
      { st.write text st.spaced with prev := some (.literal text) } := by
  have honline := h.write hunit hu st.spaced (fun _ => by simp) h.hugs
  exact OnLine.shows honline hended (by simp) (by simp [Signs, State.write])

/-- Laying out a comment to the end of the line keeps the invariant. -/
theorem Shows.lineComment (h : Shows cfg ts st) (hunit : Text.allBlank cfg.unit = true)
    {text : List Char} (hu : IsToken (.lineComment text)) :
    Shows cfg (ts ++ [.lineComment text])
      { (st.write text true).flush cfg.unit with prev := some (.lineComment text) } := by
  have honline := h.write hunit hu true (fun _ => by simp) (by simp)
  refine AtStart.shows honline.flush ?_
  intro v hfuses
  cases hfuses with
  | sign hsigns => simp [Signs] at hsigns

/-- Laying out any other comment keeps the invariant. -/
theorem Shows.blockComment (h : Shows cfg ts st) (hended : st.ended = false)
    (hunit : Text.allBlank cfg.unit = true) {text : List Char} (hu : IsToken (.blockComment text)) :
    Shows cfg (ts ++ [.blockComment text])
      { st.write text true with prev := some (.blockComment text) } := by
  have honline := h.write hunit hu true (fun _ => by simp) (by simp)
  exact OnLine.shows honline hended (by simp) (by simp [Signs, State.write])

/-- Laying out punctuation keeps the invariant. -/
theorem Shows.punct (h : Shows cfg ts st) (hended : st.ended = false)
    (hunit : Text.allBlank cfg.unit = true) {c : Char} (hu : IsToken (.punct c)) (more : Bool) :
    Shows cfg (ts ++ [.punct c]) { st.punct cfg c more with prev := some (.punct c) } := by
  have hhug := h.write hunit hu false (by simp) fun _ => hugs_punct
  have hfuses : ∀ v, ¬Fuses ts.getLast? (.punct c) v := fun v => not_fuses_behind_punct
  unfold State.punct
  split_ifs with hcomma hsemi hopen hclose
  · -- A comma between the items of a list, behind one item or in front of the next.
    obtain rfl : c = ',' := by simpa using (Bool.and_eq_true_iff.mp hcomma).1
    unfold State.comma
    cases cfg.commaPosition with
    | after => exact hhug.flush.shows hfuses
    | before =>
      have hmeets : ¬Meets ts (.punct ',') := by
        rintro ⟨before, t, -, hmeets⟩
        cases hmeets with
        | dashes _ hhead => simp [Token.text] at hhead
      have honline := h.flush_write hunit hu hmeets false
      refine OnLine.shows honline ((flush_rest _ _).2.1.trans hended) (by simp) ?_
      simp [Signs, State.write]
  · -- The end of a statement.
    exact AtStart.shows (hhug.flush.of_eq rfl rfl) hfuses
  · -- A parenthesis, behind a blank unless it opens the arguments of a call.
    obtain rfl : c = '(' := by simpa using hopen
    have honline := fun spaced => h.write hunit hu spaced (fun _ => by simp) fun _ => hugs_punct
    refine OnLine.shows ((honline _).of_eq rfl rfl rfl) hended (by simp) ?_
    simp [Signs, State.write]
  · refine OnLine.shows (hhug.of_eq rfl rfl rfl) hended (by simp) ?_
    obtain rfl : c = ')' := by simpa using hclose
    simp [Signs, State.write]
  · refine OnLine.shows (hhug.of_eq rfl rfl rfl) hended (by simp) ?_
    simp [Signs]

/-- Laying out an operator keeps the invariant. -/
theorem Shows.operator (h : Shows cfg ts st) (hended : st.ended = false)
    (hunit : Text.allBlank cfg.unit = true) {op : List Char} (hu : IsToken (.operator op)) :
    Shows cfg (ts ++ [.operator op])
      { st.operator op with prev := some (.operator op) } := by
  have honline := h.write hunit hu st.spaced (fun _ => by simp) h.hugs
  unfold State.operator
  refine OnLine.shows (honline.of_eq rfl rfl rfl) hended (by simp) ?_
  have hoperand : st.expectsOperand = ({ prev := ts.getLast? : State}).expectsOperand := by
    unfold expectsOperand
    rw [h.prev]
  simp [Signs, hoperand]

/-- Laying out a token that opens no clause keeps the invariant. -/
theorem Shows.token (h : Shows cfg ts st) (hended : st.ended = false)
    (hunit : Text.allBlank cfg.unit = true) (hu : u.IsToken) (more : Bool) :
    Shows cfg (ts ++ [u]) (st.token cfg u more) := by
  cases u with
  | word w => exact h.word hended hunit hu
  | literal text => exact h.literal hended hunit hu
  | lineComment text => exact h.lineComment hunit hu
  | blockComment text => exact h.blockComment hended hunit hu
  | punct c => exact h.punct hended hunit hu more
  | operator op => exact h.operator hended hunit hu

/-! ## Clauses -/

/-- A token is a keyword and so a word. -/
def IsClauseWord (u : Token) : Prop := ∃ w, u = .word w ∧ u.isKeyword = true

/-- A word of a phrase is the same keyword in any case. -/
theorem keyword?_of_eqIgnoringCase {w : List Char} {k : String}
    (heq : Text.eqIgnoringAsciiCase w k.toList = true) (hk : k ∈ clauses.flatten) :
    (Token.word w).keyword? = some k := by
  have hall : ∀ k ∈ clauses.flatten, k ∈ keywords ∧ k.toList.map Text.upperAscii = k.toList := by
    decide +kernel
  obtain ⟨hkeyword, hupper⟩ := hall k hk
  have hlower : w.map Text.lowerAscii = k.toList.map Text.lowerAscii := by
    simpa [Text.eqIgnoringAsciiCase] using heq
  have hw : w.map Text.upperAscii = k.toList := by
    have hboth := congrArg (List.map Text.upperAscii) hlower
    simp only [List.map_map, Function.comp_def, (Text.case_case _).2.1] at hboth
    rw [hboth, hupper]
  have hname : String.ofList (w.map Text.upperAscii) = k := by rw [hw, String.ofList_toList]
  simp [Token.keyword?, hname, hkeyword]

/-- So the words of a phrase are keywords in any case. -/
theorem isClauseWord_of_eqIgnoringCase {w : List Char} {k : String}
    (heq : Text.eqIgnoringAsciiCase w k.toList = true) (hk : k ∈ clauses.flatten) :
    IsClauseWord (.word w) :=
  ⟨w, rfl, by rw [Token.isKeyword, keyword?_of_eqIgnoringCase heq hk, Option.isSome_some]⟩

/-- Tokens that start with the words of a phrase start with as many keywords. -/
theorem isClauseWord_of_startsWith {phrase : List String}
    (hphrase : ∀ k ∈ phrase, k ∈ clauses.flatten) {us : List Token}
    (h : startsWith phrase us = true) :
    phrase.length ≤ us.length ∧ ∀ u ∈ us.take phrase.length, IsClauseWord u := by
  induction phrase, us using startsWith.induct with
  | case1 us => simp
  | case2 k phrase w us ih =>
    obtain ⟨hw, hrest⟩ := Bool.and_eq_true_iff.mp h
    obtain ⟨hlength, hwords⟩ := ih (fun k hk => hphrase k (List.mem_cons_of_mem _ hk)) hrest
    refine ⟨Nat.succ_le_succ hlength, ?_⟩
    intro u hu
    rcases List.mem_cons.mp hu with rfl | hu
    · exact isClauseWord_of_eqIgnoringCase hw (hphrase k List.mem_cons_self)
    · exact hwords u hu
  | case3 => simp_all [startsWith]

/-- The phrase that opens a clause consists of keywords. -/
theorem isClauseWord_of_clauseLength {us : List Token} {n : ℕ} (h : clauseLength us = n) :
    n ≤ us.length ∧ ∀ u ∈ us.take n, IsClauseWord u := by
  unfold clauseLength at h
  cases hfind : clauses.find? (startsWith · us) with
  | none =>
    obtain rfl : 0 = n := by rw [← h, hfind]
    simp
  | some phrase =>
    obtain rfl : phrase.length = n := by rw [← h, hfind]
    have hmem := List.mem_of_find?_eq_some hfind
    have hstarts : startsWith phrase us = true := List.find?_some (p := (startsWith · us)) hfind
    exact isClauseWord_of_startsWith (fun k hk => List.mem_flatten.mpr ⟨phrase, hmem, hk⟩) hstarts

/-- Two texts written with a blank between them are written as one. -/
theorem write_write {a : List Char} (ha : a ≠ []) (b : List Char) :
    (st.write a false).write b true = st.write (a ++ [' '] ++ b) false := by
  have hline : (st.write a false).line.isEmpty = false := by simp [State.write, ha]
  rw [State.write, hline]
  simp [State.write]

/-- Clause words go on a line whose last word is one, with blanks between them. -/
theorem OnLine.write_words {us : List Token} (hline : st.line = [])
    (hwords : ∀ u ∈ us, IsClauseWord u ∧ u.IsToken) {acc : List Char}
    (h : OnLine cfg ts (st.write acc false)) (hlast : ∃ w, ts.getLast? = some (.word w)) :
    OnLine cfg (ts ++ us) (st.write
      (us.foldl (fun acc u => acc ++ [' '] ++ written cfg.keywordCase u) acc) false) := by
  induction us generalizing ts acc with
  | nil => simpa using h
  | cons u us ih =>
    obtain ⟨⟨w, rfl, hkeyword⟩, hu⟩ := hwords u List.mem_cons_self
    obtain ⟨v, hv⟩ := hlast
    have hacc : acc ≠ [] := by
      rintro rfl
      obtain ⟨c, rest, hcons, -⟩ := h.line
      simp [State.write, hline] at hcons
    have hgap : Gap ts (if true && !(st.write acc false).glued then [' '] else []) (.word w) :=
      .space (not_meets_word hu) fun text htext => by simp [hv] at htext
    have hnext := h.write hu true hgap
    rw [write_write hacc] at hnext
    have hrest := ih (fun u hu => hwords u (List.mem_cons_of_mem _ hu)) hnext ⟨w, by simp⟩
    rwa [List.append_assoc] at hrest

/-- Laying out the phrase of a clause keeps the invariant. -/
theorem Shows.clause (h : Shows cfg ts st) (hunit : Text.allBlank cfg.unit = true) {us : List Token}
    (hwords : ∀ v ∈ u :: us, IsClauseWord v ∧ v.IsToken) :
    Shows cfg (ts ++ u :: us) (st.clause cfg (u :: us)) := by
  obtain ⟨⟨w, rfl, hkeyword⟩, hu⟩ := hwords u List.mem_cons_self
  have hstart : AtStart cfg ts { st.flush cfg.unit with indented := false } :=
    h.flush.of_eq rfl rfl
  have hfirst := hstart.write hunit hu (not_meets_word hu) false
  have hall := hfirst.write_words hstart.line
    (fun v hv => hwords v (List.mem_cons_of_mem _ hv)) ⟨w, by simp⟩
  have hjoined : Text.joinWith [' ']
      ((Token.word w :: us).map fun t => cased cfg.keywordCase t.text)
        = us.foldl (fun acc u => acc ++ [' '] ++ written cfg.keywordCase u)
            (written cfg.keywordCase (.word w)) := by
    have hwritten : ∀ v ∈ Token.word w :: us, cased cfg.keywordCase v.text
        = written cfg.keywordCase v := by
      intro v hv
      obtain ⟨⟨_, -, hv⟩, -⟩ := hwords v hv
      rw [written, if_pos hv]
    rw [List.map_congr_left hwritten, List.map_cons, Text.joinWith, List.foldl_map]
  rw [List.append_assoc, List.singleton_append, ← hjoined] at hall
  refine ⟨?_, fun _ => hall.flush.line, .inl ⟨hall.flush.of_eq rfl rfl, ?_⟩⟩
  · rw [List.getLast?_append_of_ne_nil _ (List.cons_ne_nil _ _)]
    rfl
  · -- The last token is a word, with which nothing fuses.
    obtain ⟨init, last, hsplit⟩ : ∃ init last, Token.word w :: us = init ++ [last] :=
      (List.eq_nil_or_concat' _).resolve_left (by simp)
    rw [hsplit] at hwords ⊢
    obtain ⟨⟨v, rfl, -⟩, -⟩ := hwords last (by simp)
    rw [← List.append_assoc]
    exact fun u hmeets => not_fuses_behind_word (meets_snoc.mp hmeets)

/-! ## All tokens -/

/-- A blank line between two statements keeps the invariant. -/
theorem Shows.startStatement (h : Shows cfg ts st) :
    Shows cfg ts st.startStatement ∧ st.startStatement.ended = false := by
  unfold State.startStatement
  split_ifs with hended
  · refine ⟨⟨h.prev, by simp, ?_⟩, rfl⟩
    have hline := h.ended hended
    rcases h.lines with ⟨hstart, hmeets⟩ | ⟨honline, -⟩
    · refine .inl ⟨⟨hline, ?_⟩, hmeets⟩
      obtain ⟨s, gap, htext, hlaid, hgap, hbreak⟩ := hstart.shown
      refine ⟨s, gap ++ ['\n'], ?_, hlaid, Text.allBlank_append hgap (by decide), ?_⟩
      · have hdone : Text.lined st.done = s ++ gap := by
          rw [← htext]
          simp [text, hline]
        rw [← List.append_assoc, ← hdone]
        simp [text, hline, Text.lined_cons]
      · intro hts
        obtain ⟨gap', rfl⟩ := hbreak hts
        exact ⟨gap' ++ ['\n'], rfl⟩
    · obtain ⟨c, rest, hcons, -⟩ := honline.line
      simp [hline] at hcons
  · exact ⟨h, by simpa using hended⟩

/-- At the start nothing is written and nothing laid out. -/
theorem Shows.initial (cfg : Config) : Shows cfg [] {} := by
  refine ⟨rfl, by simp, .inl ⟨⟨rfl, [], [], rfl, .nil, rfl, by simp⟩, ?_⟩⟩
  rintro u ⟨before, t, heq, -⟩
  simp at heq

/-- A token that opens no clause is laid out by itself. -/
theorem run_token {fuel : ℕ} {us : List Token}
    (h : (if st.startStatement.depth == 0 then clauseLength (u :: us) else 0) = 0) :
    State.run cfg (fuel + 1) st (u :: us)
      = State.run cfg fuel (st.startStatement.token cfg u (!us.isEmpty)) us := by
  simp only [State.run, h]

/-- A phrase that opens a clause is laid out as a whole. -/
theorem run_clause {fuel n : ℕ} {us : List Token}
    (h : (if st.startStatement.depth == 0 then clauseLength (u :: us) else 0) = n + 1) :
    State.run cfg (fuel + 1) st (u :: us)
      = State.run cfg fuel (st.startStatement.clause cfg (u :: us.take n)) (us.drop n) := by
  simp only [State.run, h]

/-- The phrase laid out as a whole consists of keywords. -/
theorem isClauseWord_of_phrase {n : ℕ} {us : List Token}
    (h : (if st.startStatement.depth == 0 then clauseLength (u :: us) else 0) = n + 1) :
    ∀ v ∈ u :: us.take n, IsClauseWord v := by
  have hclause : clauseLength (u :: us) = n + 1 := by
    split_ifs at h
    exact h
  exact (isClauseWord_of_clauseLength hclause).2

/-- Laying out tokens keeps the invariant. -/
theorem Shows.run (hunit : Text.allBlank cfg.unit = true) {fuel : ℕ} {us : List Token}
    (hfuel : us.length ≤ fuel) (hus : ∀ u ∈ us, u.IsToken) (h : Shows cfg ts st) :
    Shows cfg (ts ++ us) (State.run cfg fuel st us) := by
  induction fuel generalizing ts st us with
  | zero =>
    obtain rfl : us = [] := List.length_eq_zero_iff.mp (Nat.le_zero.mp hfuel)
    simpa [State.run] using h
  | succ fuel ih =>
    cases us with
    | nil => simpa [State.run] using h
    | cons u us =>
      obtain ⟨hstart, hended⟩ := h.startStatement
      have hlength : us.length ≤ fuel := Nat.le_of_succ_le_succ hfuel
      cases hn : (if st.startStatement.depth == 0 then clauseLength (u :: us) else 0) with
      | zero =>
        have hnext := hstart.token hended hunit (hus u List.mem_cons_self) (!us.isEmpty)
        have hrest := ih hlength (fun v hv => hus v (List.mem_cons_of_mem _ hv)) hnext
        rwa [List.append_assoc, ← run_token hn] at hrest
      | succ n =>
        have hphrase : ∀ v ∈ u :: us.take n, IsClauseWord v ∧ v.IsToken := fun v hv =>
          ⟨isClauseWord_of_phrase hn v hv, hus v (List.mem_of_mem_take (i := n + 1) hv)⟩
        have hdrop : (us.drop n).length ≤ fuel := by
          rw [List.length_drop]
          omega
        have hnext := hstart.clause hunit hphrase
        have hrest := ih hdrop
          (fun v hv => hus v (List.mem_cons_of_mem _ (List.mem_of_mem_drop hv))) hnext
        rwa [List.append_assoc, List.cons_append, List.take_append_drop, ← run_clause hn] at hrest

end State

/-- The layout is the text written in the end, when the last line is finished. -/
theorem layout_eq_text (cfg : Config) (ts : List Token) :
    layout cfg ts = ((State.run cfg ts.length {} ts).flush cfg.unit).text cfg.unit := by
  rw [State.text, State.line_flush]
  exact (List.append_nil _).symm

/-- The layout of tokens spells them, up to the line break at its end. -/
theorem layout_spells {cfg : Config} (hunit : Text.allBlank cfg.unit = true) {ts : List Token}
    (hts : ∀ t ∈ ts, t.IsToken) :
    ∃ s gap, layout cfg ts = s ++ gap ∧ Laid cfg.keywordCase ts s ∧ Text.allBlank gap = true ∧
      (ts ≠ [] → ∃ gap', gap = '\n' :: gap') := by
  have hfinal := (State.Shows.initial cfg).run hunit Nat.le.refl hts
  rw [List.nil_append] at hfinal
  rw [layout_eq_text]
  exact hfinal.flush.shown

end CodeTidy.Sql
