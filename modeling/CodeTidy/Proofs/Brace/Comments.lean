import CodeTidy.Proofs.Brace.Names
import Mathlib.Data.List.Forall2

/-!
# The lines of a block comment

Each line of a block comment begins a line of the output: behind the indentation of the braces
around the comment stands what is on the line without the white space at its ends. A line that
starts with an asterisk gets a blank in front, but the blank is white space at the start of the line
and goes when the line is finished. So no such line stands one blank further in than the comment.

`Emits` is the invariant. The lines of the comment are finished lines, with at most blank lines
between, or the last of them is the current line. What is laid out behind them goes on with the
current line or finishes it, and leaves the finished ones.
-/

namespace CodeTidy.Brace

/-! ## The depth -/

/-- The depth of braces behind a lexeme. -/
def nest (depth : ℕ) (x : Lexeme) : ℕ :=
  match x.kind with
  | .opener => depth + 1
  | .closer _ => depth - 1
  | _ => depth

/-- The braces that are open behind lexemes. A closing brace that closes nothing is passed over. -/
def nesting (xs : List Lexeme) : ℕ := xs.foldl nest 0

variable {cfg : Config} {unit : List Char} {st st' : State} {x : Lexeme}

/-- Finishing a line leaves the depth. -/
theorem depth_flush (unit : List Char) (st : State) : (st.flush unit).depth = st.depth := by
  unfold State.flush
  dsimp only
  split_ifs <;> rfl

/-- One state goes on with the current line of another. -/
structure Extends (st st' : State) : Prop where
  done : st'.done = st.done
  depth : st'.depth = st.depth
  line : st.line <:+ st'.line

/-- Going on with a line is transitive. -/
theorem Extends.trans {st'' : State} (h : Extends st st') (h' : Extends st' st'') :
    Extends st st'' :=
  ⟨h'.done.trans h.done, h'.depth.trans h.depth, h.line.trans h'.line⟩

/-- A character goes on with the line. -/
theorem extends_put (st : State) (c : Char) : Extends st (st.put c) :=
  ⟨rfl, rfl, List.suffix_cons c st.line⟩

/-- So does a text, -/
theorem extends_write (st : State) (text : List Char) : Extends st (st.write text) :=
  ⟨rfl, rfl, List.suffix_append _ _⟩

/-- and a blank. -/
theorem extends_space (st : State) : Extends st st.space := by
  rw [space_eq]
  refine ⟨rfl, rfl, ?_⟩
  show st.line <:+ withBlank st.line
  fun_cases withBlank st.line with
  | case1 => exact List.suffix_rfl
  | case2 => exact List.suffix_rfl
  | case3 => exact List.suffix_cons _ _

/-- What is not on the page does not matter. -/
theorem Extends.of_eq (hdone : st'.done = st.done) (hdepth : st'.depth = st.depth)
    (hline : st'.line = st.line) : Extends st st' :=
  ⟨hdone, hdepth, hline ▸ List.suffix_rfl⟩

/-- A line of a comment goes on with the line. -/
theorem extends_part (st : State) (part : List Char) :
    Extends st ((if part.head? == some '*' && st.line.isEmpty then st.put ' '
      else st.space).write part) := by
  refine Extends.trans ?_ (extends_write _ part)
  split_ifs
  · exact extends_put st ' '
  · exact extends_space st

/-- A comment leaves the depth. -/
theorem depth_writeComment (unit : List Char) (st : State) (parts : List (List Char)) :
    (writeComment unit st parts).depth = st.depth := by
  induction parts generalizing st with
  | nil => rfl
  | cons part parts ih =>
    have hpart := (extends_part st (Text.trim part)).depth
    unfold writeComment
    dsimp only
    split
    · exact hpart
    · rw [ih, depth_flush, hpart]

/-- A closing bracket ends a level, if there is one. -/
theorem depth_closeBrace (cfg : Config) (c : Char) (follow : Follow) (st : State) :
    (st.closeBrace cfg c follow).depth = st.depth - 1 := by
  have hclosed : ∀ (wanted : Bool),
      ((if wanted then st.put ';' else st).flush cfg.unit).depth = st.depth := by
    intro wanted
    rw [depth_flush]
    split_ifs <;> rfl
  unfold State.closeBrace
  cases follow with
  | mark => exact congrArg (· - 1) (hclosed _)
  | word => exact congrArg (· - 1) (hclosed _)
  | other => exact (depth_flush _ _).trans (congrArg (· - 1) (hclosed _))

/-- A lexeme changes the depth as a bracket of its kind does. -/
theorem depth_step (hx : x.Fits cfg.mode) (st : State) :
    (st.step cfg x).depth = nest st.depth x := by
  have hstart : (if x.raw.all Text.isBlank then st else { st with breaks := 0 }).depth =
      st.depth := by
    split_ifs <;> rfl
  unfold State.step
  dsimp only
  generalize (if x.raw.all Text.isBlank then st else { st with breaks := 0 }) = st₀ at hstart ⊢
  rw [← hstart]
  unfold nest
  unfold Lexeme.Fits at hx
  cases hkind : x.kind with
  | lineBreak =>
    unfold State.lineBreak
    dsimp only
    refine iteInduction (motive := fun st' : State => st'.depth = st₀.depth) (fun _ => ?_)
      fun _ => ?_
    · exact depth_flush _ _
    · exact (extends_space _).depth
  | lineComment => exact (depth_flush _ _).trans (extends_space st₀).depth
  | blockComment => exact depth_writeComment _ _ _
  | emptyPair =>
    dsimp only
    split_ifs
    · exact (extends_space st₀).depth
    · rfl
  | opener =>
    have hraw : ((if x.raw == ['\x7b'] && cfg.mode != .data then st₀.space else st₀).write
        x.raw).depth = st₀.depth := by
      split_ifs
      · exact (extends_space st₀).depth
      · rfl
    exact congrArg (· + 1) ((depth_flush _ _).trans hraw)
  | closer follow =>
    rw [hkind] at hx
    obtain ⟨c, ws, hraw, -⟩ := hx
    dsimp only
    rw [hraw]
    exact depth_closeBrace cfg c follow st₀
  | semicolon commented =>
    dsimp only
    split_ifs
    · exact depth_flush _ _
    · rfl
  | comma =>
    dsimp only
    split_ifs
    · exact depth_flush _ _
    · rfl
  | blank => exact (extends_space st₀).depth
  | regex | literal | parenOpen | parenClose | colon | other => rfl

/-- So the depth behind lexemes is that of the braces left open. -/
theorem depth_foldl {xs : List Lexeme} (hxs : ∀ x ∈ xs, x.Fits cfg.mode) :
    (xs.foldl (State.step cfg) {}).depth = nesting xs := by
  induction xs using List.reverseRecOn with
  | nil => rfl
  | append_singleton xs x ih =>
    unfold nesting at ih ⊢
    rw [List.foldl_append, List.foldl_append, List.foldl_cons, List.foldl_nil, List.foldl_cons,
      List.foldl_nil, depth_step (hxs x (by simp)), ih fun y hy => hxs y (by simp [hy])]

/-! ## Lines that are begun -/

/-- An output line begins with the indentation of `n` levels and then with a text. -/
def Begins (unit : List Char) (n : ℕ) (text line : List Char) : Prop :=
  indent unit n ++ text <+: line

/-- The finished lines are those of `base` and behind them, but for blank lines, one line for each
of the texts, which begins with it. The last line stands first. -/
def Rows (unit : List Char) (n : ℕ) (base texts done : List (List Char)) : Prop :=
  ∃ rows, done = rows ++ base ∧
    List.Forall₂ (Begins unit n) texts (rows.reverse.filter (!·.isEmpty))

/-- Each of the texts begins a finished line behind those of `base`. -/
def Ended (unit : List Char) (n : ℕ) (base texts : List (List Char)) (st : State) : Prop :=
  ∃ done, Rows unit n base texts done ∧ done <:+ st.done

/-- Each of the texts begins a line behind those of `base`, the last of them the current line
perhaps. -/
def Emits (unit : List Char) (n : ℕ) (base texts : List (List Char)) (st : State) : Prop :=
  Ended unit n base texts st ∨ ∃ init last, texts = init ++ [last] ∧
    Rows unit n base init st.done ∧ Text.Solid last ∧ st.depth = n ∧
    ∃ gap more, st.line.reverse = gap ++ (last ++ more) ∧ Text.allBlank gap = true

variable {n : ℕ} {base texts : List (List Char)}

/-- Finished lines stay. -/
theorem Ended.mono (h : Ended unit n base texts st) (hdone : st.done <:+ st'.done) :
    Ended unit n base texts st' := by
  obtain ⟨done, hrows, hsuffix⟩ := h
  exact ⟨done, hrows, hsuffix.trans hdone⟩

/-- Going on with the current line leaves what it begins with. -/
theorem Emits.extend (h : Emits unit n base texts st) (hst : Extends st st') :
    Emits unit n base texts st' := by
  have hdone : st.done <:+ st'.done := hst.done ▸ List.suffix_rfl
  rcases h with hended | ⟨init, last, rfl, hrows, hsolid, hdepth, gap, more, hline, hgap⟩
  · exact .inl (hended.mono hdone)
  · obtain ⟨front, hfront⟩ := hst.line
    refine .inr ⟨init, last, rfl, hst.done ▸ hrows, hsolid, hst.depth.trans hdepth, gap,
      more ++ front.reverse, ?_, hgap⟩
    rw [← hfront, List.reverse_append, hline]
    simp only [List.append_assoc]

/-- Finishing the current line adds what it begins with. -/
theorem Rows.flush {text gap more : List Char} (h : Rows unit n base texts st.done)
    (hsolid : Text.Solid text) (hdepth : st.depth = n)
    (hline : st.line.reverse = gap ++ (text ++ more)) (hgap : Text.allBlank gap = true) :
    Rows unit n base (texts ++ [text]) (st.flush unit).done := by
  obtain ⟨rows, hdone, hrows⟩ := h
  -- The white space in front goes, and what the line begins with is not cut.
  have htrim : Text.trim st.line.reverse = text ++ Text.trimEnd more := by
    have hhead : ∀ c, (text ++ more).head? = some c → Text.isBlank c = false := by
      intro c hc
      rw [List.head?_append_of_ne_nil _ hsolid.nonempty] at hc
      exact hsolid.trimmed.head c hc
    rw [hline, Text.trim_blank_append hgap, Text.trim, Text.trimStart_eq_self hhead,
      Text.trimEnd_append hsolid.trimmed.last]
  have hbegins : Begins unit n text (indent unit n ++ (text ++ Text.trimEnd more)) := by
    unfold Begins
    rw [← List.append_assoc]
    exact List.prefix_append _ _
  have hrow : (indent unit n ++ (text ++ Text.trimEnd more)).isEmpty = false := by
    simp [hsolid.nonempty]
  -- A pending blank line goes in front of it, and does not count.
  have hpush : ∃ gap, gap.filter (!·.isEmpty) = [] ∧ (st.flush unit).done =
      (indent unit n ++ (text ++ Text.trimEnd more)) :: (gap ++ st.done) := by
    unfold State.flush
    dsimp only
    rw [htrim, if_neg (by simp [hsolid.nonempty]), hdepth]
    split_ifs
    · exact ⟨[[]], rfl, rfl⟩
    · exact ⟨[], rfl, rfl⟩
  obtain ⟨blanks, hblanks, hpush⟩ := hpush
  refine ⟨(indent unit n ++ (text ++ Text.trimEnd more)) :: (blanks ++ rows), ?_, ?_⟩
  · rw [hpush, hdone, List.cons_append, List.append_assoc]
  · rw [List.reverse_cons, List.reverse_append, List.filter_append, List.filter_append,
      List.filter_reverse (l := blanks), hblanks, List.reverse_nil, List.append_nil,
      List.filter_singleton, hrow]
    exact List.rel_append hrows (.cons hbegins .nil)

/-- So finishing the current line finishes the last of the lines that are begun. -/
theorem Emits.flush (h : Emits unit n base texts st) :
    Ended unit n base texts (st.flush unit) := by
  rcases h with hended | ⟨init, last, rfl, hrows, hsolid, hdepth, gap, more, hline, hgap⟩
  · exact hended.mono (done_flush unit rfl)
  · exact ⟨_, hrows.flush hsolid hdepth hline hgap, List.suffix_rfl⟩

/-- The lines of another comment leave what is begun. -/
theorem Emits.writeComment (h : Emits unit n base texts st) (parts : List (List Char)) :
    Emits unit n base texts (writeComment unit st parts) := by
  induction parts generalizing st with
  | nil => exact h
  | cons part parts ih =>
    have hpart := h.extend (extends_part st (Text.trim part))
    unfold Brace.writeComment
    dsimp only
    split
    · exact hpart
    · exact ih (.inl hpart.flush)

/-- So does a line break. -/
theorem Emits.lineBreak (h : Emits cfg.unit n base texts st) (rest : List Char) :
    Emits cfg.unit n base texts (st.lineBreak cfg rest) := by
  have hbreak : ∀ breaks blankPending parens,
      Emits cfg.unit n base texts { st with breaks, blankPending, parens } :=
    fun _ _ _ => h.extend (.of_eq rfl rfl rfl)
  unfold State.lineBreak
  dsimp only
  refine iteInduction (motive := fun st' : State => Emits cfg.unit n base texts st') (fun _ => ?_)
    fun _ => ?_
  · exact .inl (hbreak _ _ _).flush
  · exact (hbreak _ _ _).extend (extends_space _)

/-- So does a closing bracket. -/
theorem Emits.closeBrace (h : Emits cfg.unit n base texts st) (c : Char) (follow : Follow) :
    Emits cfg.unit n base texts (st.closeBrace cfg c follow) := by
  obtain ⟨wanted, -, depth, frames, parens, heq⟩ := closeBrace_eq cfg c follow st
  have hput : Emits cfg.unit n base texts (if wanted then st.put ';' else st) := by
    split_ifs
    · exact h.extend (extends_put st ';')
    · exact h
  have hended := hput.flush
  rw [heq]
  left
  cases follow with
  | mark => exact hended
  | word => exact hended
  | other => exact hended.mono (done_flush cfg.unit rfl)

/-- A lexeme leaves what is begun. -/
theorem Emits.step (h : Emits cfg.unit n base texts st) (x : Lexeme) :
    Emits cfg.unit n base texts (st.step cfg x) := by
  have hstart : Emits cfg.unit n base texts
      (if x.raw.all Text.isBlank then st else { st with breaks := 0 }) := by
    split_ifs
    · exact h
    · exact h.extend (.of_eq rfl rfl rfl)
  unfold State.step
  dsimp only
  generalize (if x.raw.all Text.isBlank then st else { st with breaks := 0 }) = st₀ at hstart ⊢
  have hput : ∀ c, Emits cfg.unit n base texts (st₀.put c) :=
    fun c => hstart.extend (extends_put st₀ c)
  have hwrite : ∀ text, Emits cfg.unit n base texts (st₀.write text) :=
    fun text => hstart.extend (extends_write st₀ text)
  have hspace : Emits cfg.unit n base texts st₀.space := hstart.extend (extends_space st₀)
  cases x.kind with
  | lineBreak => exact hstart.lineBreak x.rest
  | regex => exact hwrite x.raw
  | literal => exact hwrite _
  | lineComment => exact .inl (hspace.extend (extends_write _ _)).flush
  | blockComment => exact hstart.writeComment _
  | emptyPair =>
    refine Emits.extend ?_ (extends_write _ _)
    split_ifs
    · exact hspace
    · exact hstart
  | opener =>
    have hraw : Emits cfg.unit n base texts
        ((if x.raw == ['\x7b'] && cfg.mode != .data then st₀.space else st₀).write x.raw) := by
      refine Emits.extend ?_ (extends_write _ _)
      split_ifs
      · exact hspace
      · exact hstart
    exact .inl hraw.flush
  | closer follow =>
    dsimp only
    split
    · exact hstart.closeBrace _ follow
    · exact hstart
  | parenOpen => exact (hwrite x.raw).extend (.of_eq rfl rfl rfl)
  | parenClose => exact (hwrite x.raw).extend (.of_eq rfl rfl rfl)
  | semicolon commented =>
    dsimp only
    split_ifs
    · exact .inl (hput ';').flush
    · exact hput ';'
  | comma =>
    dsimp only
    split_ifs
    · exact .inl (hput ',').flush
    · exact hput ','
  | colon => exact hwrite [':', ' ']
  | blank => exact hspace
  | other => exact hwrite x.raw

/-- So do the lexemes that follow. -/
theorem Emits.foldl (h : Emits cfg.unit n base texts st) (xs : List Lexeme) :
    Emits cfg.unit n base texts (xs.foldl (State.step cfg) st) := by
  induction xs generalizing st with
  | nil => exact h
  | cons x xs ih => exact ih (h.step x)

/-! ## The comment -/

/-- What stands on the lines of a comment, but for blank lines. -/
def shownLines (parts : List (List Char)) : List (List Char) :=
  (parts.map Text.trim).filter (!·.isEmpty)

/-- What stands on the lines of a comment that continue it. -/
def Lexeme.continued (x : Lexeme) : List (List Char) :=
  shownLines (Text.splitOn (· == '\n') x.raw).tail

/-- On a fresh line each line of a comment begins one. -/
theorem emits_writeComment (hrows : Rows unit n base texts st.done) (hline : st.line = [])
    (hdepth : st.depth = n) (parts : List (List Char)) :
    Emits unit n base (texts ++ shownLines parts) (writeComment unit st parts) := by
  induction parts generalizing st texts with
  | nil =>
    rw [show shownLines [] = [] from rfl, List.append_nil]
    exact .inl ⟨_, hrows, List.suffix_rfl⟩
  | cons part parts ih =>
    have hextends := extends_part st (Text.trim part)
    have hstart : ∃ gap, Text.allBlank gap = true ∧
        ((if (Text.trim part).head? == some '*' && st.line.isEmpty then st.put ' '
          else st.space).write (Text.trim part)).line.reverse = gap ++ (Text.trim part ++ []) := by
      split_ifs
      · refine ⟨[' '], by decide, ?_⟩
        simp [State.write, State.put, hline]
      · refine ⟨[], rfl, ?_⟩
        simp [State.write, State.space, hline]
    unfold writeComment
    dsimp only
    generalize (if (Text.trim part).head? == some '*' && st.line.isEmpty then st.put ' '
      else st.space).write (Text.trim part) = st₁ at hextends hstart ⊢
    obtain ⟨gap, hgap, hreverse⟩ := hstart
    have hdepth₁ : st₁.depth = n := hextends.depth.trans hdepth
    have hrows₁ : Rows unit n base texts st₁.done := hextends.done ▸ hrows
    by_cases hblank : Text.trim part = []
    · -- A blank line is not written.
      have hnone : shownLines (part :: parts) = shownLines parts := by simp [shownLines, hblank]
      have hflush : (st₁.flush unit).done = st₁.done := by
        have htrim : Text.trim st₁.line.reverse = [] := by
          rw [hreverse, hblank, List.append_nil, Text.trim_blank_append hgap]
          rfl
        unfold State.flush
        dsimp only
        rw [htrim]
        rfl
      rw [hnone]
      cases parts with
      | nil =>
        rw [show shownLines [] = [] from rfl, List.append_nil]
        exact .inl ⟨_, hrows₁, List.suffix_rfl⟩
      | cons next parts =>
        exact ih (hflush ▸ hrows₁) (flush_line unit st₁) ((depth_flush unit st₁).trans hdepth₁)
    · have hone : shownLines (part :: parts) = Text.trim part :: shownLines parts := by
        simp [shownLines, hblank]
      have hsolid : Text.Solid (Text.trim part) := ⟨hblank, Text.trim_trimmed part⟩
      rw [hone]
      cases parts with
      | nil =>
        exact .inr ⟨texts, Text.trim part, rfl, hrows₁, hsolid, hdepth₁, gap, [], hreverse, hgap⟩
      | cons next parts =>
        have hnext := ih (hrows₁.flush hsolid hdepth₁ hreverse hgap) (flush_line unit st₁)
          ((depth_flush unit st₁).trans hdepth₁)
        rwa [List.append_assoc] at hnext

/-- The line that a comment stands on is finished, and each line that continues the comment begins
one behind it. -/
theorem exists_emits_step (cfg : Config) (hkind : x.kind = .blockComment) (st : State) :
    ∃ base, st.done <:+ base ∧ Emits cfg.unit st.depth base x.continued (st.step cfg x) := by
  have hstart : ∃ st₀ : State, st.step cfg x =
      writeComment cfg.unit st₀ (Text.splitOn (· == '\n') x.raw) ∧
        st₀.done = st.done ∧ st₀.depth = st.depth := by
    unfold State.step
    rw [hkind]
    refine ⟨_, rfl, ?_, ?_⟩ <;> split_ifs <;> rfl
  obtain ⟨st₀, hstep, hdone, hdepth⟩ := hstart
  rw [hstep, ← hdone, ← hdepth]
  unfold Lexeme.continued
  generalize Text.splitOn (· == '\n') x.raw = parts
  have hnone : ∀ st' : State, Emits cfg.unit st₀.depth st'.done [] st' :=
    fun st' => .inl ⟨_, ⟨[], rfl, .nil⟩, List.suffix_rfl⟩
  match parts with
  | [] => exact ⟨st₀.done, List.suffix_rfl, hnone st₀⟩
  | [part] =>
    have hdone := (extends_part st₀ (Text.trim part)).done
    exact ⟨_, hdone ▸ List.suffix_rfl, hnone _⟩
  | part :: next :: parts =>
    have hpart := extends_part st₀ (Text.trim part)
    have hfresh : ∀ st' : State, Rows cfg.unit st₀.depth st'.done [] st'.done :=
      fun st' => ⟨[], rfl, .nil⟩
    exact ⟨_, done_flush cfg.unit hpart.done, emits_writeComment (hfresh _)
      (flush_line cfg.unit _) ((depth_flush cfg.unit _).trans hpart.depth) (next :: parts)⟩

/-- A line that begins with a text of a comment does not begin one blank further in. -/
theorem Begins.not_aligned {text line : List Char} (h : Begins unit n text line)
    (hsolid : Text.Solid text) : ¬Begins unit n (' ' :: text) line := by
  intro haligned
  obtain ⟨more, rfl⟩ := h
  unfold Begins at haligned
  rw [List.append_assoc, List.prefix_append_right_inj] at haligned
  obtain ⟨c, text, rfl⟩ := List.exists_cons_of_ne_nil hsolid.nonempty
  obtain ⟨rfl, -⟩ := List.cons_prefix_cons.mp haligned
  exact absurd (hsolid.trimmed.head ' ' rfl) (by decide)

/-- What stands on a line that continues a comment is not blank, and has no white space at its
ends. -/
theorem solid_of_mem_continued {text : List Char} (h : text ∈ x.continued) : Text.Solid text := by
  obtain ⟨hmem, hne⟩ := List.mem_filter.mp h
  obtain ⟨part, -, rfl⟩ := List.mem_map.mp hmem
  exact ⟨by simpa using hne, Text.trim_trimmed part⟩

/-- Behind the lines that are finished in front of a block comment and the line it starts on stand
its other lines, in their order, one output line for each that is not blank, and at most blank lines
between. Each begins with the indentation of the braces that are open, and right behind it with
what is on the line of the comment. So none of them begins one blank further in, starred or not. -/
theorem beautified_aligns_no_comment {r : Request} {mode : Mode}
    (h : (r.language, mode) ∈ Mode.languages) {xs ys : List Lexeme} {x : Lexeme}
    (hscan : lexemesOf mode r = xs ++ x :: ys) (hx : x.kind = .blockComment) :
    ∃ above rows below : List (List Char),
      Backend.beautified r =
        .ok (String.ofList ((above ++ rows ++ below).map (· ++ ['\n'])).flatten) ∧
      (xs.foldl (State.step (.ofSettings mode r.settings)) {}).done.reverse <+: above ∧
      List.Forall₂ (fun text row => Begins r.settings.indentUnit (nesting xs) text row ∧
        ¬Begins r.settings.indentUnit (nesting xs) (' ' :: text) row)
        x.continued (rows.filter (!·.isEmpty)) := by
  let cfg := Config.ofSettings mode r.settings
  have hfits : ∀ y ∈ xs, y.Fits mode := by
    have hall : ∀ y ∈ lexemesOf mode r, y.Fits mode :=
      lexemes_fits cfg r.code.toList.length {} r.code.toList
    rw [hscan] at hall
    exact fun y hy => hall y (List.mem_append_left _ hy)
  have hrun : State.run cfg r.code.toList.length {} r.code.toList =
      ys.foldl (State.step cfg) ((xs.foldl (State.step cfg) {}).step cfg x) := by
    have hfoldl := run_eq_foldl cfg r.code.toList.length {} r.code.toList
    rw [show State.lexemes cfg r.code.toList.length {} r.code.toList = xs ++ x :: ys from hscan,
      List.foldl_append, List.foldl_cons] at hfoldl
    exact hfoldl
  have hdepth : (xs.foldl (State.step cfg) {}).depth = nesting xs := depth_foldl hfits
  obtain ⟨base, hbase, hemits⟩ := exists_emits_step cfg hx
    (xs.foldl (State.step cfg) {})
  rw [hdepth] at hemits
  obtain ⟨_, ⟨rows, rfl, hrows⟩, below, hdone⟩ := (hemits.foldl ys).flush
  refine ⟨base.reverse, rows.reverse, below.reverse, ?_, List.reverse_prefix.mpr hbase, ?_⟩
  · rw [beautified_eq h]
    unfold layout State.finish
    rw [hrun, ← hdone, List.reverse_append, List.reverse_append]
  · have hsolid : ∀ text ∈ x.continued, Text.Solid text := fun _ => solid_of_mem_continued
    exact ((List.forall₂_and_left _ _).mpr ⟨hsolid, hrows⟩).imp
      fun _ _ hrow => ⟨hrow.2, hrow.2.not_aligned hrow.1⟩

/-- The lines of a starred comment between the braces of a style rule. -/
theorem beautified_aligns_no_comment_style :
    ("css", Mode.style false) ∈ Mode.languages ∧
      ∃ above rows below : List (List Char),
        Backend.beautified ⟨"a \x7b/* x\n* y\n*/\x7d", "css", Settings.resolve {} "css"⟩ =
          .ok (String.ofList ((above ++ rows ++ below).map (· ++ ['\n'])).flatten) ∧
        List.Forall₂ (fun text row => "  ".toList ++ text <+: row ∧
          ¬"   ".toList ++ text <+: row) ["* y".toList, "*/".toList]
            (rows.filter (!·.isEmpty)) := by
  have hmode : ("css", Mode.style false) ∈ Mode.languages := by decide
  have hget : (lexemesOf (.style false)
      ⟨"a \x7b/* x\n* y\n*/\x7d", "css", Settings.resolve {} "css"⟩)[3]? =
        some ⟨.blockComment, "/* x\n* y\n*/".toList, ['\x7d']⟩ := rfl
  obtain ⟨hlength, hget⟩ := List.getElem?_eq_some_iff.mp hget
  have hscan := List.take_append_drop 3 (lexemesOf (.style false)
    ⟨"a \x7b/* x\n* y\n*/\x7d", "css", Settings.resolve {} "css"⟩)
  rw [List.drop_eq_getElem_cons hlength, hget] at hscan
  obtain ⟨above, rows, below, hout, -, hrows⟩ := beautified_aligns_no_comment hmode hscan.symm rfl
  have hindent : (Settings.resolve {} "css").indentUnit = "  ".toList := rfl
  have hnesting : nesting ((lexemesOf (.style false)
      ⟨"a \x7b/* x\n* y\n*/\x7d", "css", Settings.resolve {} "css"⟩).take 3) = 1 := rfl
  have hcontinued : Lexeme.continued ⟨.blockComment, "/* x\n* y\n*/".toList, ['\x7d']⟩ =
      ["* y".toList, "*/".toList] := by decide +kernel
  rw [hindent, hnesting, hcontinued] at hrows
  exact ⟨hmode, above, rows, below, hout, hrows⟩

/-- The fallback puts the blank in front of a starred line, and the beautifier loses it. -/
theorem beautified_loses_alignment :
    Backend.beautified ⟨"/*\n * a\n */\nf()", "javascript", Settings.resolve {} "javascript"⟩ =
        .ok "/*\n* a\n*/\nf()\n" ∧
      Backend.tidied ⟨"/*\n * a\n */\nf()", "javascript", Settings.resolve {} "javascript"⟩ =
        .ok "/*\n * a\n */\nf()\n" := by
  exact ⟨rfl, rfl⟩

end CodeTidy.Brace
