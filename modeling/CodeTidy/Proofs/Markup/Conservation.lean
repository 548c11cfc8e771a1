import CodeTidy.Backend.Builtin
import CodeTidy.Proofs.Markup.Tokens
import CodeTidy.Proofs.Settings.Indent
import CodeTidy.Proofs.Text.Strip

/-!
# The layout of markup changes white space only

The layout takes one, two or three tokens at a time off a list of tokens and writes them. What does
not change is `content`: the characters on the lines written so far, and behind them those of the
tokens that are left, white space aside. Each step keeps it, hence so does a run, and
`beautified_keeps` compares its two ends: in the end nothing is left, and at the start nothing is
written and the tokens are the text.
-/

namespace CodeTidy.Markup

/-- The characters of tokens without white space. -/
def solid (tokens : List Token) : List Char := Text.strip (tokens.flatMap Token.raw)

/-- The characters on the lines written so far, without white space. -/
def State.shown (st : State) : List Char := st.lines.reverse.flatMap Text.strip

/-- What is written together with what is left to write. -/
def content (st : State) (rest : List Token) : List Char := st.shown ++ solid rest

/-- The characters of the first token come first. -/
theorem solid_cons (token : Token) (rest : List Token) :
    solid (token :: rest) = Text.strip token.raw ++ solid rest := by
  unfold solid
  rw [List.flatMap_cons, Text.strip_append]

/-! ## Writing -/

section writing

variable {unit : List Char} {st : State} {text : List Char}

/-- A line more shows what is on it, the indentation aside. -/
theorem shown_emit (hunit : Text.allBlank unit = true) :
    (st.emit unit text).shown = st.shown ++ Text.strip text := by
  unfold State.emit State.shown
  rw [List.reverse_cons, List.flatMap_append, List.flatMap_singleton, Text.strip_append,
    Text.strip_of_blank (Text.allBlank_replicate hunit st.depth), List.nil_append]

/-- Several lines show what is on them. -/
theorem shown_foldl_emit (hunit : Text.allBlank unit = true) (texts : List (List Char)) :
    (texts.foldl (State.emit unit) st).shown = st.shown ++ texts.flatMap Text.strip := by
  induction texts generalizing st with
  | nil => exact (List.append_nil _).symm
  | cons text texts ih =>
    rw [List.foldl_cons, ih, shown_emit hunit, List.append_assoc, List.flatMap_cons]

/-- An empty line shows nothing, so it may be left out. -/
theorem shown_emitNonempty (hunit : Text.allBlank unit = true) :
    (emitNonempty unit st text).shown = st.shown ++ Text.strip text := by
  unfold emitNonempty
  split_ifs with hempty
  · rw [List.isEmpty_iff.mp hempty]
    exact (List.append_nil _).symm
  · exact shown_emit hunit

/-- What is written at the end of the last line is shown behind it. -/
theorem shown_append (h : st.lines ≠ []) : (st.append text).shown = st.shown ++ Text.strip text := by
  obtain ⟨lines, depth, verbatim⟩ := st
  cases lines with
  | nil => exact absurd rfl h
  | cons line lines =>
    unfold State.append State.shown
    dsimp only
    rw [List.reverse_cons, List.reverse_cons, List.flatMap_append, List.flatMap_append,
      List.flatMap_singleton, List.flatMap_singleton, Text.strip_append, List.append_assoc]

/-- Runs of white space are made short, and nothing else is touched. -/
theorem strip_collapse (text : List Char) : Text.strip (collapse text) = Text.strip text := by
  have hblank : Text.allBlank [' '] = true := by decide
  unfold collapse
  rw [Text.strip_joinWith hblank, Text.flatMap_strip_words]

/-- The trimmed lines of a text hold what it holds. -/
theorem flatMap_strip_inner (text : List Char) :
    (((Text.lines text).map Text.trim).filter (!·.isEmpty)).flatMap Text.strip =
      Text.strip text := by
  rw [Text.flatMap_strip_nonempty, List.flatMap_map, ← Text.flatMap_strip_lines]
  exact List.flatMap_congr fun line _ => Text.strip_trim line

end writing

/-! ## Steps -/

section steps

variable {settings : Settings} {unit : List Char} {st : State} {name raw : List Char}
  {rest rest' : List Token} {line : List Char}

/-- An element on one line is its tags with its text between them. -/
theorem solid_of_inline? {depth : ℕ}
    (h : inline? settings depth name raw rest = some (line, rest')) :
    Text.strip line ++ solid rest' = Text.strip raw ++ solid rest ∧
      rest'.length ≤ rest.length := by
  unfold inline? at h
  split at h
  · rename_i name' raw' rest
    split_ifs at h
    obtain ⟨rfl, rfl⟩ := Prod.mk.inj (Option.some.inj h)
    refine ⟨?_, Nat.le_succ _⟩
    rw [solid_cons, Text.strip_append, List.append_assoc]
    rfl
  · rename_i text name' raw' rest
    dsimp only at h
    split_ifs at h
    obtain ⟨rfl, rfl⟩ := Prod.mk.inj (Option.some.inj h)
    refine ⟨?_, (Nat.le_succ _).trans (Nat.le_succ _)⟩
    rw [solid_cons, solid_cons, Text.strip_append, Text.strip_append, strip_collapse,
      List.append_assoc, List.append_assoc]
    rfl
  · exact absurd h nofun

/-- A start tag is written, and so is the content of a raw element that is taken with it. -/
theorem content_openElement (hunit : Text.allBlank unit = true) (selfClosing : Bool) :
    content (openElement unit st name raw selfClosing rest).1
        (openElement unit st name raw selfClosing rest).2 =
      st.shown ++ (Text.strip raw ++ solid rest) ∧
      (openElement unit st name raw selfClosing rest).2.length ≤ rest.length := by
  have htag : (st.emit unit (Text.trim raw)).shown = st.shown ++ Text.strip raw := by
    rw [shown_emit hunit, Text.strip_trim]
  have hlines : (st.emit unit (Text.trim raw)).lines ≠ [] := by
    unfold State.emit
    exact List.cons_ne_nil _ _
  unfold openElement
  dsimp only
  generalize st.emit unit (Text.trim raw) = st' at htag hlines ⊢
  -- How deep the tag stands does not matter.
  have hdeeper : ({ st' with depth := st'.depth + 1 } : State).shown =
      st.shown ++ Text.strip raw := htag
  have hlines : ({ st' with depth := st'.depth + 1 } : State).lines ≠ [] := hlines
  have hsame : content st' rest = st.shown ++ (Text.strip raw ++ solid rest) := by
    unfold content
    rw [htag, List.append_assoc]
  by_cases hself : selfClosing = true
  · rw [if_pos hself]
    exact ⟨hsame, Nat.le_refl _⟩
  · rw [if_neg hself]
    split
    · rename_i content' rest'
      rw [solid_cons]
      split_ifs
      · -- The content is kept behind the tag.
        refine ⟨?_, Nat.le_succ _⟩
        show (State.append { st' with depth := st'.depth + 1 } content').shown ++ solid rest' = _
        rw [shown_append hlines, hdeeper, List.append_assoc, List.append_assoc]
        rfl
      · -- The content goes on lines of its own.
        refine ⟨?_, Nat.le_succ _⟩
        unfold content
        rw [shown_foldl_emit hunit, flatMap_strip_inner, hdeeper, List.append_assoc,
          List.append_assoc]
        rfl
      · refine ⟨?_, Nat.le_refl _⟩
        rw [← solid_cons]
        exact hsame
    · exact ⟨hsame, Nat.le_refl _⟩

/-- An end tag is written. -/
theorem shown_closeElement (hunit : Text.allBlank unit = true) :
    (closeElement unit st name raw).shown = st.shown ++ Text.strip raw := by
  unfold closeElement
  dsimp only
  split_ifs with hverbatim
  · have hlines : st.lines ≠ [] := by
      rw [Bool.and_eq_true, Bool.not_eq_true', List.isEmpty_eq_false_iff] at hverbatim
      exact hverbatim.2
    have hshallow : ({ st with depth := st.depth - 1 } : State).lines ≠ [] := hlines
    exact shown_append hshallow
  · rw [shown_emit hunit, Text.strip_trim]
    rfl

/-- A step writes the tokens that it takes. -/
theorem content_step (token : Token) :
    content (step settings st token rest).1 (step settings st token rest).2 =
      content st (token :: rest) ∧
      (step settings st token rest).2.length ≤ rest.length := by
  have hunit := settings.allBlank_indentUnit
  have hcontent : ∀ {st' : State}, st'.shown = st.shown ++ Text.strip token.raw →
      content st' rest = content st (token :: rest) := by
    intro st' hst
    unfold content
    rw [hst, solid_cons, List.append_assoc]
  unfold step
  dsimp only
  cases token with
  | openTag name raw selfClosing =>
    dsimp only
    split
    · rename_i line rest' hinline
      obtain ⟨-, hinline⟩ := Option.ite_none_left_eq_some.mp hinline
      obtain ⟨hsolid, hlength⟩ := solid_of_inline? hinline
      refine ⟨?_, hlength⟩
      unfold content
      rw [shown_emit hunit, List.append_assoc, hsolid, solid_cons]
      rfl
    · obtain ⟨hopen, hlength⟩ :=
        @content_openElement settings.indentUnit st name raw rest hunit selfClosing
      refine ⟨?_, hlength⟩
      rw [hopen]
      unfold content
      rw [solid_cons]
      rfl
  | closeTag name raw => exact ⟨hcontent (shown_closeElement hunit), Nat.le_refl _⟩
  | text text =>
    refine ⟨hcontent ?_, Nat.le_refl _⟩
    rw [shown_emitNonempty hunit, strip_collapse]
    rfl
  | other raw =>
    refine ⟨hcontent ?_, Nat.le_refl _⟩
    rw [shown_emitNonempty hunit, Text.strip_trim]
    rfl

end steps

/-! ## Runs -/

/-- A run takes one step and goes on. -/
theorem run_cons (settings : Settings) (fuel : ℕ) (st : State) (token : Token)
    (rest : List Token) : run settings (fuel + 1) st (token :: rest) =
      run settings fuel (step settings st token rest).1 (step settings st token rest).2 := rfl

/-- A run writes all tokens, if there is fuel for their number. -/
theorem shown_run (settings : Settings) {fuel : ℕ} (st : State) {tokens : List Token}
    (hfuel : tokens.length ≤ fuel) : (run settings fuel st tokens).shown = content st tokens := by
  have hnone : ∀ st : State, st.shown = content st [] := fun st => (List.append_nil _).symm
  induction fuel generalizing st tokens with
  | zero =>
    rw [List.length_eq_zero_iff.mp (Nat.le_zero.mp hfuel)]
    exact hnone st
  | succ fuel ih =>
    cases tokens with
    | nil => exact hnone st
    | cons token rest =>
      obtain ⟨hstep, hlength⟩ := @content_step settings st rest token
      unfold run
      dsimp only
      rw [ih _ (hlength.trans (Nat.le_of_succ_le_succ hfuel)), hstep]

/-- The text of the lines shows what is on them. -/
theorem strip_text (st : State) : Text.strip st.text = st.shown := by
  have hbreak : Text.allBlank ['\n'] = true := by decide
  unfold State.text State.shown
  rw [Text.strip_flatten, List.flatMap_map]
  refine List.flatMap_congr fun line _ => ?_
  rw [Text.strip_append, Text.strip_of_blank hbreak, List.append_nil]

/-- The name of the language that is laid out as markup. -/
def languageOf (html : Bool) : String := if html then "html" else "xml"

/-- The beautifier lays out both languages. -/
theorem beautified_eq (settings : Settings) (html : Bool) (text : List Char) :
    Backend.beautified ⟨String.ofList text, languageOf html, settings⟩ =
      .ok (String.ofList (beautify settings html text)) := by
  have hcode : (String.ofList text).toList = text := String.toList_ofList
  unfold Backend.beautified
  dsimp only
  rw [hcode]
  cases html with
  | false => rfl
  | true => rfl

/-- Nothing but white space is lost or added when markup is laid out. The tokens of a text make it
up, character by character, and the beautifier writes all of their characters in the same order and
no others, white space aside. -/
theorem beautified_keeps (settings : Settings) (html : Bool) (text : List Char) :
    ((tokenize html text).map Token.raw).flatten = text ∧
      ∃ out, Backend.beautified ⟨String.ofList text, languageOf html, settings⟩ =
          .ok (String.ofList out) ∧
        Text.strip out = Text.strip text := by
  have htokens : (tokenize html text).flatMap Token.raw = text := flatMap_raw_tokenize html text
  refine ⟨htokens, beautify settings html text, beautified_eq settings html text, ?_⟩
  unfold beautify
  dsimp only
  rw [strip_text, shown_run settings {} (Nat.le_refl _)]
  show solid (tokenize html text) = Text.strip text
  unfold solid
  rw [htokens]

end CodeTidy.Markup
