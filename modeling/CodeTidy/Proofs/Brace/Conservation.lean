import CodeTidy.Backend.Builtin
import CodeTidy.Brace.Layout
import CodeTidy.Proofs.Brace.Lexing
import CodeTidy.Proofs.Settings.Indent
import CodeTidy.Settings.Resolve

/-!
# The layout of brace languages changes white space only

Each lexeme shows in the output as one or more solid pieces, in the order of the lexemes and with
nothing but white space between the pieces. `Shows` says which pieces: a regular expression or a
closed literal is one piece, a literal with other quotes perhaps, and everything else is its
characters without the white space, a brace perhaps with a semicolon in front. `Holds` is the
invariant of the layout. It follows the pieces into the finished lines and into the current line,
whose white space may still be trimmed.
-/

namespace CodeTidy.Brace

/-- The same literal with the other quotes of a string. -/
def Swapped (raw z : List Char) : Prop :=
  ∃ q q' inner, (q = '\'' ∧ q' = '"' ∨ q = '"' ∧ q' = '\'') ∧
    raw = q :: (inner ++ [q]) ∧ z = q' :: (inner ++ [q'])

/-- The layout may put a semicolon in front of a brace: in scripts if they want semicolons, and in
style sheets. -/
def Config.Terminates (cfg : Config) : Prop :=
  cfg.mode = .script ∧ cfg.semi = true ∨ ∃ lineComments, cfg.mode = .style lineComments

/-- The pieces as which a lexeme shows in the output. -/
inductive Shows (cfg : Config) (x : Lexeme) : List (List Char) → Prop
  /-- What must stay in one piece does. -/
  | whole (h : x.Whole) : Shows cfg x [x.raw]
  /-- A string of a script may show with the other quotes. -/
  | swapped {z : List Char} (hmode : cfg.mode = .script) (hkind : x.kind = .literal)
    (h : Swapped x.raw z) : Shows cfg x [z]
  /-- Any other lexeme shows as its characters that are not white space. -/
  | chars (h : ¬x.Whole) : Shows cfg x ((Text.strip x.raw).map fun c => [c])
  /-- A brace may show with a semicolon in front. -/
  | semicolon {ws : List Char} (h : ¬x.Whole) (hmode : cfg.Terminates)
    (hraw : x.raw = '\x7d' :: ws) (hws : Text.allBlank ws = true) :
    Shows cfg x [[';'], ['\x7d']]

/-- The state has written the pieces: some are in the finished lines, and the others are on the
current line, solid, so that trimming the line does not reach them. -/
def Holds (zs : List (List Char)) (st : State) : Prop :=
  ∃ above below, zs = above ++ below ∧ Text.Spaced above (Text.lined st.done) ∧
    Text.Spaced below st.line.reverse ∧ ∀ z ∈ below, Text.Solid z

/-! ## Pieces -/

/-- A character that is not white space is solid. -/
theorem solid_singleton {c : Char} (h : Text.isBlank c = false) : Text.Solid [c] := by
  refine ⟨by simp, ?_, ?_⟩
  · intro d hd
    obtain rfl := Option.some.inj hd
    exact h
  · intro d hd
    obtain rfl := Option.some.inj hd
    exact h

/-- The characters that stripping leaves are solid. -/
theorem solid_chars {s : List Char} : ∀ z ∈ (Text.strip s).map fun c => [c], Text.Solid z := by
  intro z hz
  obtain ⟨c, hc, rfl⟩ := List.mem_map.mp hz
  exact solid_singleton (by simpa using (List.mem_filter.mp hc).2)

/-- A text between two quotes is solid. -/
theorem solid_quoted {q : Char} (hq : Text.isBlank q = false) (inner : List Char) :
    Text.Solid (q :: (inner ++ [q])) := by
  refine ⟨by simp, ?_, ?_⟩
  · intro c hc
    obtain rfl := Option.some.inj hc
    exact hq
  · intro c hc
    rw [← List.cons_append, List.getLast?_concat] at hc
    obtain rfl := Option.some.inj hc
    exact hq

/-- A lexeme that must stay in one piece is solid. -/
theorem Lexeme.Fits.solid {mode : Mode} {x : Lexeme} (h : x.Fits mode) (hwhole : x.Whole) :
    Text.Solid x.raw := by
  unfold Lexeme.Fits at h
  rcases hwhole with hkind | ⟨hkind, q, inner, hraw⟩
  · rw [hkind] at h
    exact h
  · rw [hkind] at h
    obtain ⟨⟨q', hq', body, hbody⟩, -⟩ := h
    obtain rfl : q = q' := (List.cons.inj (hraw.symm.trans hbody)).1
    rw [hraw]
    refine solid_quoted ?_ inner
    simp only [List.mem_cons, List.not_mem_nil, or_false] at hq'
    rcases hq' with rfl | rfl | rfl <;> decide

/-- A string with other quotes is solid. -/
theorem Swapped.solid {raw z : List Char} (h : Swapped raw z) : Text.Solid z := by
  obtain ⟨q, q', inner, hquotes, -, rfl⟩ := h
  refine solid_quoted ?_ inner
  rcases hquotes with ⟨-, rfl⟩ | ⟨-, rfl⟩ <;> decide

/-- Only a regular expression or a literal is whole. -/
theorem not_whole {x : Lexeme} {kind : Kind} (hkind : x.kind = kind) (hregex : kind ≠ .regex)
    (hliteral : kind ≠ .literal) : ¬x.Whole := by
  rintro (h | ⟨h, -⟩)
  · exact hregex (hkind.symm.trans h)
  · exact hliteral (hkind.symm.trans h)

/-- A string with the preferred quotes is the string itself, or it has got the other quotes. -/
theorem requote_cases (style : QuoteStyle) (raw : List Char) :
    requote style raw = raw ∨ Swapped raw (requote style raw) := by
  have hswap : ∀ q q' : Char, (q = '\'' ∧ q' = '"' ∨ q = '"' ∧ q' = '\'') →
      ∀ first rest, (first == q && rest.getLast? == some q) = true →
        Swapped (first :: rest) (q' :: rest.dropLast ++ [q']) := by
    intro q q' hquotes first rest hends
    rw [Bool.and_eq_true, beq_iff_eq, beq_iff_eq] at hends
    obtain ⟨rfl, hlast⟩ := hends
    refine ⟨first, q', rest.dropLast, hquotes, ?_, rfl⟩
    rw [List.dropLast_append_getLast? first hlast]
  unfold requote
  cases raw with
  | nil => exact .inl rfl
  | cons first rest =>
    cases style with
    | double =>
      dsimp only
      split_ifs with hends hinner
      · exact .inl rfl
      · exact .inr (hswap _ _ (.inl ⟨rfl, rfl⟩) _ _ hends)
      · exact .inl rfl
    | single =>
      dsimp only
      split_ifs with hends hinner
      · exact .inl rfl
      · exact .inr (hswap _ _ (.inr ⟨rfl, rfl⟩) _ _ hends)
      · exact .inl rfl

/-- Data want no semicolons. -/
theorem Config.Terminates.ne_data {cfg : Config} (h : cfg.Terminates) : cfg.mode ≠ .data := by
  rcases h with ⟨hscript, -⟩ | ⟨lineComments, hstyle⟩
  · rw [hscript]
    exact nofun
  · rw [hstyle]
    exact nofun

/-! ## Writing -/

/-- The pieces of a text go on the current line with the text. -/
theorem Holds.write {zs ws : List (List Char)} {st : State} {text : List Char} (h : Holds zs st)
    (htext : Text.Spaced ws text) (hws : ∀ z ∈ ws, Text.Solid z) :
    Holds (zs ++ ws) (st.write text) := by
  obtain ⟨above, below, rfl, habove, hbelow, hsolid⟩ := h
  refine ⟨above, below ++ ws, List.append_assoc _ _ _, habove, ?_, ?_⟩
  · show Text.Spaced (below ++ ws) (text.reverse ++ st.line).reverse
    rw [List.reverse_append, List.reverse_reverse]
    exact hbelow.append htext
  · intro z hz
    exact (List.mem_append.mp hz).elim (hsolid z) (hws z)

/-- The characters of a text go on the current line with it. -/
theorem Holds.write_chars {zs : List (List Char)} {st : State} (h : Holds zs st)
    (text : List Char) :
    Holds (zs ++ (Text.strip text).map fun c => [c]) (st.write text) :=
  h.write (Text.spaced_chars text) solid_chars

/-- White space on the current line is no piece. -/
theorem Holds.write_blank {zs : List (List Char)} {st : State} {text : List Char} (h : Holds zs st)
    (htext : Text.allBlank text = true) : Holds zs (st.write text) := by
  have hwrite := h.write (.nil htext) (by simp)
  rwa [List.append_nil] at hwrite

/-- A blank is no piece. -/
theorem Holds.space {zs : List (List Char)} {st : State} (h : Holds zs st) : Holds zs st.space := by
  unfold State.space
  split
  · exact h
  · exact h
  · have hblank : Text.allBlank [' '] = true := by decide
    exact h.write_blank hblank

/-- Finishing the current line trims it and indents it, which leaves the pieces alone. -/
theorem Holds.flush {zs : List (List Char)} {st : State} {unit : List Char} (h : Holds zs st)
    (hunit : Text.allBlank unit = true) : Holds zs (st.flush unit) := by
  obtain ⟨above, below, rfl, habove, hbelow, hsolid⟩ := h
  have htrim := hbelow.trim hsolid
  have hindent := Text.allBlank_replicate hunit st.depth
  unfold State.flush
  dsimp only
  split_ifs with hempty hblank
  · -- No piece is on a line of white space.
    rw [List.isEmpty_iff] at hempty
    rw [hempty] at htrim
    have happend := habove.append htrim
    rw [List.append_nil] at happend
    exact ⟨above ++ below, [], (List.append_nil _).symm, happend, .nil rfl, by simp⟩
  · exact ⟨above ++ below, [], (List.append_nil _).symm,
      habove.lined (htrim.blank_append hindent) true, .nil rfl, by simp⟩
  · exact ⟨above ++ below, [], (List.append_nil _).symm,
      habove.lined (htrim.blank_append hindent) false, .nil rfl, by simp⟩

/-- Whether or not the current line is finished makes no difference to the pieces. -/
theorem Holds.flush_if {zs : List (List Char)} {st : State} {unit : List Char} (h : Holds zs st)
    (hunit : Text.allBlank unit = true) (ends : Bool) :
    Holds zs (if ends then st.flush unit else st) := by
  split_ifs
  · exact h.flush hunit
  · exact h

/-- Nothing is left on the current line when it is finished. -/
theorem flush_line (unit : List Char) (st : State) : (st.flush unit).line = [] := by
  unfold State.flush
  dsimp only
  split_ifs <;> rfl

/-- The whole text consists of the pieces. -/
theorem Holds.finish {zs : List (List Char)} {st : State} {unit : List Char} (h : Holds zs st)
    (hunit : Text.allBlank unit = true) : Text.Spaced zs (st.finish unit) := by
  obtain ⟨above, below, rfl, habove, hbelow, -⟩ := h.flush hunit
  rw [flush_line] at hbelow
  have happend := habove.append hbelow
  rw [List.reverse_nil, List.append_nil] at happend
  exact happend

/-- The lines of a block comment are written with all that is on them. -/
theorem Holds.writeComment {zs : List (List Char)} {st : State} {unit : List Char}
    {parts : List (List Char)} (h : Holds zs st) (hunit : Text.allBlank unit = true) :
    Holds (zs ++ (parts.flatMap Text.strip).map fun c => [c]) (writeComment unit st parts) := by
  induction parts generalizing zs st with
  | nil =>
    rw [List.flatMap_nil, List.map_nil, List.append_nil]
    exact h
  | cons part parts ih =>
    rw [List.flatMap_cons, List.map_append, ← List.append_assoc]
    unfold Brace.writeComment
    dsimp only
    have hstart : Holds zs (if (Text.trim part).head? == some '*' && st.line.isEmpty then st.put ' '
        else st.space) := by
      split_ifs
      · have hblank : Text.allBlank [' '] = true := by decide
        exact h.write_blank hblank
      · exact h.space
    have hpart := hstart.write_chars (Text.trim part)
    rw [Text.strip_trim] at hpart
    split
    · rw [List.flatMap_nil, List.map_nil, List.append_nil]
      exact hpart
    · exact ih (hpart.flush hunit)

/-! ## Lexemes -/

variable {cfg : Config} {zs : List (List Char)} {st : State} {x : Lexeme}

/-- A line break writes no piece. -/
theorem Holds.lineBreak (h : Holds zs st) (hunit : Text.allBlank cfg.unit = true)
    (rest : List Char) : Holds zs (st.lineBreak cfg rest) := by
  unfold State.lineBreak
  dsimp only
  -- What is counted beside the line and the finished lines does not matter.
  refine iteInduction (fun _ => ?_) fun _ => ?_
  · exact Holds.flush h hunit
  · exact Holds.space h

/-- An opening brace is written, and its line is finished. -/
theorem Holds.openBrace (h : Holds zs st) (hunit : Text.allBlank cfg.unit = true)
    (raw : List Char) :
    Holds (zs ++ (Text.strip raw).map fun c => [c]) (st.openBrace cfg raw) := by
  have hstart : Holds zs (if raw == ['\x7b'] && cfg.mode != .data then st.space else st) := by
    split_ifs
    · exact h.space
    · exact h
  exact (hstart.write_chars raw).flush hunit

/-- A closing bracket starts a line, which goes on as what follows the bracket asks. -/
def State.putClosing (cfg : Config) (c : Char) (follow : Follow) (depth : ℕ) (frames : List Frame)
    (parens : ℕ) (st : State) : State :=
  let st := { st.flush cfg.unit with depth, frames, parens }.put c
  match follow with
  | .mark => st
  | .word => st.put ' '
  | .other => st.flush cfg.unit

/-- A bracket that closes is put behind the current line, to which a semicolon is added if one is
wanted. -/
theorem closeBrace_eq (cfg : Config) (c : Char) (follow : Follow) (st : State) :
    ∃ wanted : Bool, (wanted = true → cfg.Terminates) ∧ ∃ depth frames parens,
      st.closeBrace cfg c follow =
        (if wanted then st.put ';' else st).putClosing cfg c follow depth frames parens := by
  refine ⟨_, ?_, _, _, _, rfl⟩
  intro hwanted
  have hmode := (Bool.and_eq_true_iff.mp hwanted).1
  split at hmode
  · rename_i hscript
    exact .inl ⟨hscript, (Bool.and_eq_true_iff.mp hmode).1⟩
  · rename_i lineComments hstyle
    exact .inr ⟨lineComments, hstyle⟩
  · exact absurd hmode Bool.false_ne_true

/-- A closing bracket is one piece more. -/
theorem Holds.putClosing (h : Holds zs st) (hunit : Text.allBlank cfg.unit = true) {c : Char}
    (hc : Text.isBlank c = false) (follow : Follow) (depth : ℕ) (frames : List Frame)
    (parens : ℕ) : Holds (zs ++ [[c]]) (st.putClosing cfg c follow depth frames parens) := by
  have hput : Holds (zs ++ [[c]]) ({ st.flush cfg.unit with depth, frames, parens }.put c) :=
    Holds.write (h.flush hunit) (Text.spaced_self [c])
      (List.forall_mem_singleton.mpr (solid_singleton hc))
  cases follow with
  | mark => exact hput
  | word =>
    have hblank : Text.allBlank [' '] = true := by decide
    exact hput.write_blank hblank
  | other => exact hput.flush hunit

/-- A closing bracket is written behind the semicolon that is wanted. -/
theorem Holds.closeBrace (h : Holds zs st) (hunit : Text.allBlank cfg.unit = true) {c : Char}
    (hc : Text.isBlank c = false) (follow : Follow) :
    Holds (zs ++ [[c]]) (st.closeBrace cfg c follow) ∨
      cfg.Terminates ∧ Holds (zs ++ [[';'], [c]]) (st.closeBrace cfg c follow) := by
  obtain ⟨wanted, hwanted, depth, frames, parens, heq⟩ := closeBrace_eq cfg c follow st
  rw [heq]
  cases wanted with
  | false => exact .inl (h.putClosing hunit hc follow depth frames parens)
  | true =>
    have hput : Holds (zs ++ [[';']]) (st.put ';') :=
      h.write (Text.spaced_self [';'])
        (List.forall_mem_singleton.mpr (solid_singleton (by decide)))
    have hclosing := hput.putClosing hunit hc follow depth frames parens
    rw [List.append_assoc] at hclosing
    exact .inr ⟨hwanted rfl, hclosing⟩

/-- Writing a literal keeps it whole if it is closed, up to its quotes. -/
theorem Holds.literal (h : Holds zs st) (hkind : x.kind = .literal) (hx : x.Fits cfg.mode) :
    ∃ ws, Shows cfg x ws ∧ Holds (zs ++ ws)
      (st.write (if cfg.mode == .script then requote cfg.quoteStyle x.raw else x.raw)) := by
  have hsame : ∃ ws, Shows cfg x ws ∧ Holds (zs ++ ws) (st.write x.raw) := by
    by_cases hwhole : x.Whole
    · exact ⟨[x.raw], .whole hwhole, h.write (Text.spaced_self _)
        (List.forall_mem_singleton.mpr (hx.solid hwhole))⟩
    · exact ⟨_, .chars hwhole, h.write_chars x.raw⟩
  split_ifs with hmode
  · rw [beq_iff_eq] at hmode
    rcases requote_cases cfg.quoteStyle x.raw with heq | hswapped
    · rw [heq]
      exact hsame
    · exact ⟨_, .swapped hmode hkind hswapped, h.write (Text.spaced_self _)
        (List.forall_mem_singleton.mpr hswapped.solid)⟩
  · exact hsame

/-- A lexeme of another kind shows as its characters, of which white space is none. -/
theorem exists_shows_chars {st' : State} {text : List Char} (hwhole : ¬x.Whole)
    (htext : Text.strip x.raw = Text.strip text)
    (h : Holds (zs ++ (Text.strip text).map fun c => [c]) st') :
    ∃ ws, Shows cfg x ws ∧ Holds (zs ++ ws) st' := by
  rw [← htext] at h
  exact ⟨_, .chars hwhole, h⟩

/-- A closing bracket shows as itself, or it is a brace behind a semicolon. -/
theorem Holds.closer (h : Holds zs st) (hunit : Text.allBlank cfg.unit = true) (hwhole : ¬x.Whole)
    {c : Char} {ws : List Char} (hraw : x.raw = c :: ws) (hws : Text.allBlank ws = true)
    (hc : c = '\x7d' ∨ c = ']' ∧ cfg.mode = .data) (follow : Follow) :
    ∃ shown, Shows cfg x shown ∧ Holds (zs ++ shown) (st.closeBrace cfg c follow) := by
  have hsolid : Text.isBlank c = false := by
    rcases hc with rfl | ⟨rfl, -⟩ <;> decide
  rcases h.closeBrace hunit hsolid follow with hclose | ⟨hmode, hclose⟩
  · have hpiece : (Text.strip [c]).map (fun c => [c]) = [[c]] := by
      rw [Text.strip_cons, if_neg (by simp [hsolid])]
      rfl
    have hstrip : Text.strip x.raw = Text.strip [c] := by
      rw [hraw, Text.strip_cons, Text.strip_cons, Text.strip_of_blank hws]
      rfl
    rw [← hpiece] at hclose
    exact exists_shows_chars hwhole hstrip hclose
  · refine ⟨[[';'], [c]], ?_, hclose⟩
    rcases hc with rfl | ⟨rfl, hdata⟩
    · exact .semicolon hwhole hmode hraw hws
    · exact absurd hdata hmode.ne_data

/-- One step of the layout writes what the lexeme shows. -/
theorem Holds.step (h : Holds zs st) (hunit : Text.allBlank cfg.unit = true)
    (hx : x.Fits cfg.mode) : ∃ ws, Shows cfg x ws ∧ Holds (zs ++ ws) (st.step cfg x) := by
  -- The count of line breaks is no part of what is written.
  have hstart : Holds zs (if x.raw.all Text.isBlank then st else { st with breaks := 0 }) := by
    split_ifs
    · exact h
    · exact h
  -- White space shows as no piece at all.
  have hnone : ∀ {st' : State}, Holds zs st' →
      Holds (zs ++ (Text.strip []).map fun c => [c]) st' := by
    intro st' hst
    rw [show Text.strip [] = [] from rfl, List.map_nil, List.append_nil]
    exact hst
  have hfits := hx
  unfold Lexeme.Fits at hfits
  unfold State.step
  dsimp only
  generalize (if x.raw.all Text.isBlank then st else { st with breaks := 0 }) = st at hstart ⊢
  cases hkind : x.kind with
  | lineBreak =>
    rw [hkind] at hfits
    have hraw : Text.strip x.raw = Text.strip [] := by
      rw [show x.raw = ['\n'] from hfits]
      decide
    exact exists_shows_chars (not_whole hkind nofun nofun) hraw
      (hnone (hstart.lineBreak hunit x.rest))
  | regex =>
    rw [hkind] at hfits
    exact ⟨[x.raw], .whole (.inl hkind), hstart.write (Text.spaced_self x.raw)
      (List.forall_mem_singleton.mpr hfits)⟩
  | literal => exact hstart.literal hkind hx
  | lineComment =>
    exact exists_shows_chars (not_whole hkind nofun nofun)
      (Text.strip_trimEnd x.raw).symm
      ((hstart.space.write_chars (Text.trimEnd x.raw)).flush hunit)
  | blockComment =>
    refine ⟨_, .chars (not_whole hkind nofun nofun), ?_⟩
    rw [← Text.strip_splitOn (p := fun c => c == '\n')]
    · exact hstart.writeComment hunit
    · intro c hc
      obtain rfl := eq_of_beq hc
      decide
  | emptyPair =>
    refine exists_shows_chars (not_whole hkind nofun nofun) (Text.strip_strip x.raw).symm ?_
    refine Holds.write_chars ?_ (Text.strip x.raw)
    split_ifs
    · exact hstart.space
    · exact hstart
  | opener =>
    exact exists_shows_chars (not_whole hkind nofun nofun) rfl (hstart.openBrace hunit x.raw)
  | closer follow =>
    rw [hkind] at hfits
    obtain ⟨c, ws, hraw, hws, hc⟩ := hfits
    rw [hraw]
    exact hstart.closer hunit (not_whole hkind nofun nofun) hraw hws hc follow
  | parenOpen =>
    exact exists_shows_chars (not_whole hkind nofun nofun) rfl (hstart.write_chars x.raw)
  | parenClose =>
    exact exists_shows_chars (not_whole hkind nofun nofun) rfl (hstart.write_chars x.raw)
  | semicolon commented =>
    rw [hkind] at hfits
    have hput := hstart.write_chars [';']
    refine exists_shows_chars (not_whole hkind nofun nofun)
      (congrArg Text.strip (show x.raw = [';'] from hfits)) ?_
    exact hput.flush_if hunit _
  | comma =>
    rw [hkind] at hfits
    have hput := hstart.write_chars [',']
    refine exists_shows_chars (not_whole hkind nofun nofun)
      (congrArg Text.strip (show x.raw = [','] from hfits)) ?_
    exact hput.flush_if hunit _
  | colon =>
    rw [hkind] at hfits
    obtain ⟨ws, hraw, hws⟩ := hfits
    have hstrip : Text.strip x.raw = Text.strip [':', ' '] := by
      rw [hraw, Text.strip_cons, Text.strip_of_blank hws]
      decide
    exact exists_shows_chars (not_whole hkind nofun nofun) hstrip
      (hstart.write_chars [':', ' '])
  | blank =>
    rw [hkind] at hfits
    have hstrip : Text.strip x.raw = Text.strip [] := Text.strip_of_blank hfits
    exact exists_shows_chars (not_whole hkind nofun nofun) hstrip (hnone hstart.space)
  | other =>
    exact exists_shows_chars (not_whole hkind nofun nofun) rfl (hstart.write_chars x.raw)

/-! ## Runs -/

/-- The lexemes that a run of the layout takes from the text, one after the other. -/
def State.lexemes (cfg : Config) : ℕ → State → List Char → List Lexeme
  | 0, _, _ => []
  | _ + 1, _, [] => []
  | fuel + 1, st, c :: rest =>
    let x := Lexeme.next cfg.mode st.line c rest
    x :: lexemes cfg fuel (st.step cfg x) x.rest

/-- The lexemes of a text that is laid out. -/
def scan (cfg : Config) (text : List Char) : List Lexeme :=
  State.lexemes cfg text.length {} text

/-- A run lays out these lexemes. -/
theorem run_eq_foldl (cfg : Config) (fuel : ℕ) (st : State) (text : List Char) :
    State.run cfg fuel st text = (State.lexemes cfg fuel st text).foldl (State.step cfg) st := by
  induction fuel generalizing st text with
  | zero => rfl
  | succ fuel ih =>
    cases text with
    | nil => rfl
    | cons c rest => exact ih _ _

/-- The characters of each lexeme are those of its kind. -/
theorem lexemes_fits (cfg : Config) (fuel : ℕ) (st : State) (text : List Char) :
    ∀ x ∈ State.lexemes cfg fuel st text, x.Fits cfg.mode := by
  induction fuel generalizing st text with
  | zero => simp [State.lexemes]
  | succ fuel ih =>
    cases text with
    | nil => simp [State.lexemes]
    | cons c rest =>
      intro x hx
      rcases List.mem_cons.mp hx with rfl | hx
      · exact next_fits cfg.mode st.line c rest
      · exact ih _ _ x hx

/-- The lexemes make up the text, if there is fuel for its length. -/
theorem lexemes_flatMap_raw (cfg : Config) {fuel : ℕ} (st : State) {text : List Char}
    (hfuel : text.length ≤ fuel) :
    (State.lexemes cfg fuel st text).flatMap Lexeme.raw = text := by
  induction fuel generalizing st text with
  | zero => exact (List.length_eq_zero_iff.mp (Nat.le_zero.mp hfuel)).symm
  | succ fuel ih =>
    cases text with
    | nil => rfl
    | cons c rest =>
      have happend := next_append cfg.mode st.line c rest
      have hpos := List.length_pos_of_ne_nil (next_raw_ne_nil cfg.mode st.line c rest)
      have hlength := congrArg List.length happend
      rw [List.length_append] at hlength
      unfold State.lexemes
      dsimp only
      rw [List.flatMap_cons, ih _ (by omega)]
      exact happend

/-- A run writes what the lexemes show, one after the other. -/
theorem Holds.foldl (hunit : Text.allBlank cfg.unit = true) {xs : List Lexeme} (h : Holds zs st)
    (hxs : ∀ x ∈ xs, x.Fits cfg.mode) :
    ∃ shown, List.Forall₂ (Shows cfg) xs shown ∧
      Holds (zs ++ shown.flatten) (xs.foldl (State.step cfg) st) := by
  induction xs generalizing zs st with
  | nil =>
    refine ⟨[], .nil, ?_⟩
    rw [List.flatten_nil, List.append_nil]
    exact h
  | cons x xs ih =>
    obtain ⟨ws, hws, hstep⟩ := h.step hunit (hxs x List.mem_cons_self)
    obtain ⟨shown, hshown, hrun⟩ := ih hstep fun y hy => hxs y (List.mem_cons_of_mem _ hy)
    refine ⟨ws :: shown, .cons hws hshown, ?_⟩
    rw [List.flatten_cons, ← List.append_assoc]
    exact hrun

/-- Where neither quotes nor semicolons are touched, a lexeme shows all of its characters but the
white space. -/
theorem Shows.strip_eq {ws : List (List Char)} (h : Shows cfg x ws) (hdata : cfg.mode = .data) :
    ws.flatMap Text.strip = Text.strip x.raw := by
  cases h with
  | whole => exact List.flatMap_singleton _ _
  | swapped hmode => exact absurd (hdata.symm.trans hmode) nofun
  | chars => exact (Text.spaced_chars x.raw).strip_eq.symm
  | semicolon _ hmode => exact absurd hdata hmode.ne_data

/-- A lexeme that must stay in one piece shows as that piece, with other quotes perhaps. -/
theorem Shows.of_whole {ws : List (List Char)} (h : Shows cfg x ws) (hwhole : x.Whole) :
    ∃ z, ws = [z] ∧ (z = x.raw ∨ cfg.mode = .script ∧ x.kind = .literal ∧ Swapped x.raw z) := by
  cases h with
  | whole => exact ⟨x.raw, rfl, .inl rfl⟩
  | swapped hmode hkind hswapped => exact ⟨_, rfl, .inr ⟨hmode, hkind, hswapped⟩⟩
  | chars hnot => exact absurd hwhole hnot
  | semicolon hnot => exact absurd hwhole hnot

/-- What a lexeme shows is among all that is shown. -/
theorem exists_shown {xs : List Lexeme} {shown : List (List (List Char))}
    (h : List.Forall₂ (Shows cfg) xs shown) : ∀ x ∈ xs, ∃ ws ∈ shown, Shows cfg x ws := by
  induction h with
  | nil => simp
  | @cons y ws xs shown hy _ ih =>
    intro x hx
    rcases List.mem_cons.mp hx with rfl | hx
    · exact ⟨ws, List.mem_cons_self, hy⟩
    · obtain ⟨ws', hmem, hws'⟩ := ih x hx
      exact ⟨ws', List.mem_cons_of_mem _ hmem, hws'⟩

/-- Data show all of their characters but the white space. -/
theorem flatMap_strip_of_data {xs : List Lexeme} {shown : List (List (List Char))}
    (h : List.Forall₂ (Shows cfg) xs shown) (hdata : cfg.mode = .data) :
    shown.flatten.flatMap Text.strip = Text.strip (xs.flatMap Lexeme.raw) := by
  induction h with
  | nil => rfl
  | cons hx _ ih =>
    rw [List.flatten_cons, List.flatMap_append, hx.strip_eq hdata, ih, List.flatMap_cons,
      Text.strip_append]

/-- The languages with braces. -/
def Mode.languages : List (String × Mode) :=
  [("javascript", .script), ("typescript", .script), ("css", .style false), ("scss", .style true),
    ("less", .style true), ("json", .data)]

/-- What settings ask of the layout of a language. -/
def Config.ofSettings (mode : Mode) (settings : Settings) : Config :=
  ⟨mode, settings.indentUnit, settings.semi, settings.quoteStyle⟩

/-- The beautifier lays out the languages with braces. -/
theorem beautified_eq {r : Request} {mode : Mode} (h : (r.language, mode) ∈ Mode.languages) :
    Backend.beautified r =
      .ok (String.ofList (layout (.ofSettings mode r.settings) r.code.toList)) := by
  obtain ⟨code, language, settings⟩ := r
  simp only [Mode.languages, List.mem_cons, Prod.mk.injEq, List.not_mem_nil, or_false] at h
  rcases h with ⟨rfl, rfl⟩ | ⟨rfl, rfl⟩ | ⟨rfl, rfl⟩ | ⟨rfl, rfl⟩ | ⟨rfl, rfl⟩ | ⟨rfl, rfl⟩ <;> rfl

/-- The lexemes of the code of a request, as the layout takes them. -/
def lexemesOf (mode : Mode) (r : Request) : List Lexeme :=
  scan (.ofSettings mode r.settings) r.code.toList

/-- The beautifier lays out every text of a language with braces, lexeme by lexeme. The output
consists of what the lexemes show, in their order and with white space between. So nothing but white
space changes in data, and otherwise only quotes of strings in scripts and semicolons in front of
braces. Regular expressions and closed literals stay in one piece, and a literal that is not closed
goes to the end of its line or of the text. -/
theorem beautified_shows {r : Request} {mode : Mode} (h : (r.language, mode) ∈ Mode.languages) :
    ∃ out shown, Backend.beautified r = .ok (String.ofList out) ∧
      out = ((lexemesOf mode r).foldl (State.step (.ofSettings mode r.settings)) {}).finish
        r.settings.indentUnit ∧
      (lexemesOf mode r).flatMap Lexeme.raw = r.code.toList ∧
      List.Forall₂ (Shows (.ofSettings mode r.settings)) (lexemesOf mode r) shown ∧
      Text.Spaced shown.flatten out ∧
      Text.strip out = shown.flatten.flatMap Text.strip ∧
      (mode = .data → Text.strip out = Text.strip r.code.toList) ∧
      ∀ x ∈ lexemesOf mode r,
        (x.kind = .literal → x.Whole ∨ x.Open) ∧
        (x.Whole → ∃ z, z <:+: out ∧
          (z = x.raw ∨ mode = .script ∧ x.kind = .literal ∧ Swapped x.raw z)) := by
  have hunit : Text.allBlank (Config.ofSettings mode r.settings).unit = true :=
    r.settings.allBlank_indentUnit
  -- Nothing is written at the start, and each lexeme adds what it shows.
  have hstart : Holds [] ({} : State) := ⟨[], [], rfl, .nil rfl, .nil rfl, by simp⟩
  have hfits := lexemes_fits (.ofSettings mode r.settings) r.code.toList.length {} r.code.toList
  have hraw := lexemes_flatMap_raw (.ofSettings mode r.settings) {}
    (Nat.le_refl r.code.toList.length)
  have hrun := run_eq_foldl (.ofSettings mode r.settings) r.code.toList.length {} r.code.toList
  obtain ⟨shown, hshown, hholds⟩ := hstart.foldl hunit hfits
  have hspaced := hholds.finish hunit
  rw [List.nil_append] at hspaced
  refine ⟨_, shown, ?_, rfl, hraw, hshown, hspaced, hspaced.strip_eq, ?_, ?_⟩
  · rw [beautified_eq h]
    unfold layout
    rw [hrun]
    rfl
  · intro hdata
    have hstrip := flatMap_strip_of_data hshown hdata
    rw [hraw] at hstrip
    exact hspaced.strip_eq.trans hstrip
  · intro x hx
    refine ⟨(hfits x hx).whole_or_open, ?_⟩
    intro hwhole
    obtain ⟨ws, hmem, hws⟩ := exists_shown hshown x hx
    obtain ⟨z, rfl, hz⟩ := hws.of_whole hwhole
    exact ⟨z, hspaced.infix z (List.mem_flatten.mpr ⟨[z], hmem, List.mem_singleton_self z⟩), hz⟩

/-- A string in a list stays in one piece, its blank included. -/
theorem beautified_shows_list :
    ("json", Mode.data) ∈ Mode.languages ∧
      ∃ out, Backend.beautified ⟨"[ \"a b\" ]", "json", Settings.resolve {} "json"⟩
          = .ok (String.ofList out) ∧
        Text.strip out = "[\"ab\"]".toList ∧ "\"a b\"".toList <:+: out := by
  have hmode : ("json", Mode.data) ∈ Mode.languages := by decide
  obtain ⟨out, shown, hout, -, -, -, -, -, hdata, hwhole⟩ :=
    beautified_shows (r := ⟨"[ \"a b\" ]", "json", Settings.resolve {} "json"⟩) hmode
  refine ⟨hmode, out, hout, ?_, ?_⟩
  · rw [hdata rfl]
    decide +kernel
  · let x : Lexeme := ⟨.literal, "\"a b\"".toList, " ]".toList⟩
    have hx : x ∈ lexemesOf .data ⟨"[ \"a b\" ]", "json", Settings.resolve {} "json"⟩ :=
      List.mem_of_getElem? (i := 2) rfl
    obtain ⟨z, hz, hsame | ⟨hscript, -⟩⟩ := (hwhole x hx).2 (.inr ⟨rfl, '"', "a b".toList, rfl⟩)
    · rw [hsame] at hz
      exact hz
    · exact absurd hscript nofun

end CodeTidy.Brace
