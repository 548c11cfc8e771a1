import CodeTidy.Proofs.Markup.Conservation
import CodeTidy.Proofs.Markup.Cutting
import CodeTidy.Proofs.Text.Ascii
import CodeTidy.Settings.Resolve

/-!
# Preformatted content

The content of `pre` and `textarea` goes to their end tag. It is looked for by the characters that
an end tag starts with, so a tag of a longer name that starts with the same letters is found as
well. `beautified_keeps_preformatted` says that this is the only thing that can go wrong: the
content stands unchanged between the same two tags exactly if the search finds nothing earlier.
-/

namespace CodeTidy.Markup

/-! ## End tags -/

/-- An end tag of an element, whose name is in lower case. The name of the tag is compared as a
whole, without regard to case. -/
def IsEndTag (name tag : List Char) : Prop :=
  ∃ raw, tag = '<' :: '/' :: raw ∧ IsTag tag ∧ tagName true raw = name

/-- A text starts with an end tag of an element. -/
def StartsEndTag (name s : List Char) : Prop := ∃ tag rest, s = tag ++ rest ∧ IsEndTag name tag

/-- The content of an element goes to the first end tag of it. -/
structure Content (name body tag rest : List Char) : Prop where
  ends : IsEndTag name tag
  first : ∀ back ∈ body.tails, back ≠ [] → ¬StartsEndTag name (back ++ (tag ++ rest))

/-- The test whether a text starts with an end tag. -/
def endsElement (name s : List Char) : Bool :=
  match s with
  | '<' :: '/' :: tail =>
    match tagEnd? none 1 ('/' :: tail) with
    | some n => tagName true (tail.take (n - 2)) == name
    | none => false
  | _ => false

/-- There is only one place where the tag can end. -/
theorem endsElement_iff {name s : List Char} : endsElement name s = true ↔ StartsEndTag name s := by
  have htake : ∀ raw rest : List Char,
      (raw ++ rest).take (('<' :: '/' :: raw).length - 2) = raw := fun raw rest => List.take_left
  constructor
  · intro h
    unfold endsElement at h
    split at h
    · rename_i tail
      split at h
      · rename_i n hend
        obtain ⟨raw, rest, hsplit, rfl, hraw⟩ := exists_isTag hend
        cases raw with
        | nil => exact absurd hraw not_isTag_bracket
        | cons c raw =>
          obtain rfl : '/' = c := (List.cons.inj hsplit).1
          obtain rfl : tail = raw ++ rest := (List.cons.inj hsplit).2
          rw [htake, beq_iff_eq] at h
          exact ⟨'<' :: '/' :: raw, rest, rfl, raw, rfl, hraw, h⟩
      · exact absurd h nofun
    · exact absurd h nofun
  · rintro ⟨_, rest, rfl, raw, rfl, hraw, hname⟩
    have hend := tagEnd?_of_isTag hraw rest
    show (match tagEnd? none 1 ('/' :: (raw ++ rest)) with
      | some n => tagName true ((raw ++ rest).take (n - 2)) == name
      | none => false) = true
    rw [List.cons_append] at hend
    rw [hend]
    dsimp only
    rw [htake, hname, beq_self_eq_true]

instance (name s : List Char) : Decidable (StartsEndTag name s) :=
  decidable_of_iff _ endsElement_iff

section cut

variable {html : Bool} {ts ts' : List Token} {s : List Char}

/-- Where a start tag is taken off, the text behind it is cut by itself. -/
theorem Cuts.drop {before after : List Token} {name raw : List Char} {selfClosing : Bool}
    (h : Cuts html (before ++ .openTag name raw selfClosing :: after) s) :
    ∃ s', Cuts html (.openTag name raw selfClosing :: after) s' := by
  generalize hts : before ++ .openTag name raw selfClosing :: after = ts at h
  induction h generalizing before with
  | nil => exact absurd hts (by simp)
  | openText => cases before <;> simp at hts
  | openComment => cases before <;> simp at hts
  | text _ _ _ _ ih | comment _ _ ih | declaration _ _ _ ih | closeTag _ _ ih =>
    cases before with
    | nil => exact absurd (List.cons.inj hts).1 nofun
    | cons t before => exact ih (List.cons.inj hts).2
  | openTag hraw hstart hopen h ih =>
    cases before with
    | nil =>
      rw [List.nil_append] at hts
      rw [hts]
      exact ⟨_, .openTag hraw hstart hopen h⟩
    | cons t before => exact ih (List.cons.inj hts).2
  | rawElement hraw hstart hholds hend h ih =>
    cases before with
    | nil =>
      rw [List.nil_append] at hts
      rw [hts]
      exact ⟨_, .rawElement hraw hstart hholds hend h⟩
    | cons t before =>
      have hts := (List.cons.inj hts).2
      cases before with
      | nil => exact absurd (List.cons.inj hts).1 nofun
      | cons t before => exact ih (List.cons.inj hts).2

/-- Where it starts no end tag of an element, it starts one of another, or a text. -/
theorem Cuts.slash_other {name : List Char} (h : Cuts true ts ('<' :: '/' :: s))
    (hname : ¬StartsEndTag name ('<' :: '/' :: s)) :
    ∃ token ts' raw, ts = token :: ts' ∧ ((∃ name', token = .closeTag name' raw ∧ name' ≠ name) ∨
      (token = .text raw ∧ raw.head? = some '<')) := by
  rcases h.slash with ⟨raw, rest, ts', rfl, hraw, rfl⟩ | rfl
  · refine ⟨_, ts', _, rfl, .inl ⟨_, rfl, fun hsame => hname ?_⟩⟩
    exact ⟨_, rest, rfl, raw, rfl, hraw, hsame⟩
  · exact ⟨_, [], _, rfl, .inr ⟨rfl, rfl⟩⟩

end cut

section mark

variable {name tag s : List Char}

/-- An end tag starts with the mark of its element. -/
theorem IsEndTag.endMark_isPrefix (h : IsEndTag name tag) :
    endMark name <+: tag.map Text.lowerAscii := by
  obtain ⟨raw, rfl, -, rfl⟩ := h
  exact endMark_isPrefix raw

/-- The content of a raw element is cut in front of the first mark. -/
theorem Cuts.content {raw : List Char} {after : List Token} {s' : List Char}
    (h : Cuts true (.openTag name raw false :: after) s') (hname : isRawElement name = true)
    (hs : after.flatMap Token.raw = s) (hmark : endMark name <:+: s.map Text.lowerAscii) :
    ∃ content rest ts, s = content ++ rest ∧ IsTag raw ∧ after = .other content :: ts ∧
      Cuts true ts rest ∧
      First (endMark name) (content.map Text.lowerAscii) (rest.map Text.lowerAscii) := by
  generalize hts : Token.openTag name raw false :: after = ts at h
  cases h with
  | nil | openText | text | comment | openComment | declaration | closeTag =>
    exact absurd hts (by simp)
  | openTag hraw hstart hopen h =>
    obtain ⟨hhead, rfl⟩ := List.cons.inj hts
    obtain ⟨rfl, rfl, hself⟩ := Token.openTag.inj hhead
    rw [h.flatMap_raw] at hs
    subst hs
    exact absurd hmark (hopen ⟨rfl, hself.symm, hname⟩)
  | @rawElement raw content rest ts hraw hstart hholds hend h =>
    obtain ⟨hhead, rfl⟩ := List.cons.inj hts
    obtain ⟨rfl, rfl, -⟩ := Token.openTag.inj hhead
    rw [List.flatMap_cons, h.flatMap_raw] at hs
    exact ⟨content, rest, ts, hs.symm, hraw, rfl, h, hend⟩

/-- The content is cut in front of the end tag, or earlier if the mark stands in it. -/
theorem Content.cut {body rest content s : List Char} (h : Content name body tag rest)
    (hname : '<' ∉ name) (hsplit : content ++ s = body ++ (tag ++ rest))
    (hfirst : First (endMark name) (content.map Text.lowerAscii) (s.map Text.lowerAscii)) :
    ∃ back, body = content ++ back ∧ s = back ++ (tag ++ rest) ∧
      (back = [] ↔ ¬endMark name <:+: body.map Text.lowerAscii) := by
  have hmark := h.ends.endMark_isPrefix
  obtain ⟨back, rfl, rfl⟩ : ∃ back, body = content ++ back ∧ s = back ++ (tag ++ rest) := by
    rcases List.append_eq_append_iff.mp hsplit with ⟨back, hbody, hs⟩ | ⟨more, rfl, hs⟩
    · exact ⟨back, hbody, hs⟩
    · -- If not earlier, the mark of the end tag itself is found.
      by_cases hmore : more = []
      · subst hmore
        exact ⟨[], by simp, hs.symm⟩
      · refine absurd ?_ (hfirst.earliest (body.map Text.lowerAscii) (more.map Text.lowerAscii)
          List.map_append (by simpa using hmore))
        rw [← List.map_append, ← hs, List.map_append]
        exact hmark.trans (List.prefix_append _ _)
  refine ⟨back, rfl, rfl, ?_⟩
  constructor
  · -- In what is taken nothing would be found.
    rintro rfl
    rw [List.append_nil]
    exact hfirst.not_isInfix (List.cons_ne_nil _ _)
  · intro hnone
    by_contra hback
    have hhere := hfirst.here
    obtain ⟨tail, rfl⟩ := exists_of_endMark hmark
    rw [List.map_append, List.map_append, List.map_cons] at hhere
    have hstarts := endMark_isPrefix_of_append hname (by simpa using hback) hhere
    refine hnone ?_
    rw [List.map_append]
    exact hstarts.isInfix.trans (List.suffix_append _ _).isInfix

end mark

/-! ## What is on the page stays -/

section page

variable {settings : Settings} {unit : List Char} {st : State} {text : List Char}

/-- The text of the lines, the last of which may still go on. -/
def State.page (st : State) : List Char :=
  match st.lines with
  | [] => []
  | line :: lines => Text.lined lines ++ line

/-- In the end the last line is finished. -/
theorem page_prefix_text (st : State) : st.page <+: st.text := by
  obtain ⟨lines, depth, verbatim⟩ := st
  cases lines with
  | nil => exact List.nil_prefix
  | cons line lines =>
    show Text.lined lines ++ line <+: Text.lined (line :: lines)
    rw [Text.lined_cons, ← List.append_assoc]
    exact List.prefix_append _ _

/-- A new line goes behind the finished ones. -/
theorem page_emit : (st.emit unit text).page =
    st.text ++ ((List.replicate st.depth unit).flatten ++ text) := rfl

/-- What is written at the end of the last line goes behind all there is. -/
theorem page_append (st : State) (text : List Char) (h : st.lines ≠ []) :
    (st.append text).page = st.page ++ text := by
  obtain ⟨lines, depth, verbatim⟩ := st
  cases lines with
  | nil => exact absurd rfl h
  | cons line lines => exact (List.append_assoc _ _ _).symm

/-- Neither way of writing changes what is there. -/
theorem page_prefix_emit (st : State) (text : List Char) :
    st.page <+: (st.emit unit text).page := by
  rw [page_emit]
  exact (page_prefix_text st).trans (List.prefix_append _ _)

/-- The same for lines that go behind the last one. -/
theorem page_prefix_append (st : State) (text : List Char) : st.page <+: (st.append text).page := by
  by_cases h : st.lines = []
  · obtain ⟨lines, depth, verbatim⟩ := st
    obtain rfl := h
    exact List.prefix_rfl
  · rw [page_append st text h]
    exact List.prefix_append _ _

/-- So with several lines. -/
theorem page_prefix_foldl (st : State) (texts : List (List Char)) :
    st.page <+: (texts.foldl (State.emit unit) st).page := by
  induction texts generalizing st with
  | nil => exact List.prefix_rfl
  | cons text texts ih => exact (page_prefix_emit st text).trans (ih _)

/-- A step writes behind what there is. -/
theorem page_prefix_step (settings : Settings) (st : State) (token : Token) (rest : List Token) :
    st.page <+: (step settings st token rest).1.page := by
  have hnonempty : ∀ text, st.page <+: (emitNonempty settings.indentUnit st text).page := by
    intro text
    unfold emitNonempty
    split_ifs
    · exact List.prefix_rfl
    · exact page_prefix_emit _ _
  unfold step
  dsimp only
  cases token with
  | text | other => exact hnonempty _
  | closeTag name raw =>
    unfold closeElement
    dsimp only
    split_ifs
    · exact page_prefix_append { st with depth := st.depth - 1 } raw
    · exact page_prefix_emit { st with depth := st.depth - 1 } (Text.trim raw)
  | openTag name raw selfClosing =>
    dsimp only
    split
    · exact page_prefix_emit _ _
    · have htag : st.page <+: (st.emit settings.indentUnit (Text.trim raw)).page :=
        page_prefix_emit _ _
      unfold openElement
      dsimp only
      generalize st.emit settings.indentUnit (Text.trim raw) = st' at htag ⊢
      have hdeeper : st.page <+: ({ st' with depth := st'.depth + 1 } : State).page := htag
      generalize ({ st' with depth := st'.depth + 1 } : State) = st'' at hdeeper ⊢
      by_cases hself : selfClosing = true
      · rw [if_pos hself]
        exact htag
      · rw [if_neg hself]
        split
        · split_ifs
          · exact hdeeper.trans (page_prefix_append _ _)
          · exact hdeeper.trans (page_prefix_foldl _ _)
          · exact hdeeper
        · exact hdeeper

/-- So does a run. -/
theorem page_prefix_run (settings : Settings) (fuel : ℕ) (st : State) (tokens : List Token) :
    st.page <+: (run settings fuel st tokens).text := by
  induction fuel generalizing st tokens with
  | zero => exact page_prefix_text st
  | succ fuel ih =>
    cases tokens with
    | nil => exact page_prefix_text st
    | cons token rest => exact (page_prefix_step settings st token rest).trans (ih _ _)

end page

/-! ## Up to a start tag -/

/-- A step takes no start tag but the first token. -/
theorem step_takes (settings : Settings) (st : State) (token : Token) (rest : List Token) :
    ∃ taken, rest = taken ++ (step settings st token rest).2 ∧
      ∀ name raw selfClosing, .openTag name raw selfClosing ∉ taken := by
  have hnone : ∀ rest : List Token, ∃ taken, rest = taken ++ rest ∧
      ∀ name raw selfClosing, Token.openTag name raw selfClosing ∉ taken :=
    fun rest => ⟨[], rfl, by simp⟩
  unfold step
  dsimp only
  cases token with
  | text | other | closeTag => exact hnone _
  | openTag name raw selfClosing =>
    dsimp only
    split
    · rename_i line rest' hinline
      replace hinline := (Option.ite_none_left_eq_some.mp hinline).2
      unfold inline? at hinline
      split at hinline
      · rename_i name' raw' rest
        split_ifs at hinline
        obtain ⟨-, rfl⟩ := Prod.mk.inj (Option.some.inj hinline)
        exact ⟨[.closeTag name' raw'], rfl, by simp⟩
      · rename_i text name' raw' rest
        dsimp only at hinline
        split_ifs at hinline
        obtain ⟨-, rfl⟩ := Prod.mk.inj (Option.some.inj hinline)
        exact ⟨[.text text, .closeTag name' raw'], rfl, by simp⟩
      · exact absurd hinline nofun
    · unfold openElement
      dsimp only
      by_cases hself : selfClosing = true
      · rw [if_pos hself]
        exact hnone _
      · rw [if_neg hself]
        split
        · rename_i content rest' _
          split_ifs
          · exact ⟨[.other content], rfl, by simp⟩
          · exact ⟨[.other content], rfl, by simp⟩
          · exact hnone _
        · exact hnone _

/-- The characters of tokens come in the order of the tokens. -/
theorem solid_append (ts us : List Token) : solid (ts ++ us) = solid ts ++ solid us := by
  unfold solid
  rw [List.flatMap_append, Text.strip_append]

/-- A run comes to a start tag with everything in front of it written. -/
theorem run_reaches (settings : Settings) {name raw : List Char} {selfClosing : Bool}
    {before after : List Token} {fuel : ℕ} (st : State)
    (hfuel : (before ++ .openTag name raw selfClosing :: after).length ≤ fuel) :
    ∃ fuel' st', (.openTag name raw selfClosing :: after).length ≤ fuel' ∧
      st'.shown = st.shown ++ solid before ∧
      run settings fuel st (before ++ .openTag name raw selfClosing :: after) =
        run settings fuel' st' (.openTag name raw selfClosing :: after) := by
  induction fuel generalizing st before with
  | zero =>
    rw [List.length_append, List.length_cons] at hfuel
    omega
  | succ fuel ih =>
    cases before with
    | nil => exact ⟨fuel + 1, st, hfuel, (List.append_nil _).symm, rfl⟩
    | cons token before =>
      obtain ⟨hcontent, -⟩ :=
        @content_step settings st (before ++ .openTag name raw selfClosing :: after) token
      obtain ⟨taken, htaken, hopens⟩ :=
        step_takes settings st token (before ++ .openTag name raw selfClosing :: after)
      generalize hstep :
        step settings st token (before ++ .openTag name raw selfClosing :: after) = next
        at hcontent htaken
      obtain ⟨st₁, rest⟩ := next
      dsimp only at hcontent htaken
      -- What is taken ends in front of the start tag.
      obtain ⟨before', rfl, rfl⟩ : ∃ before', before = taken ++ before' ∧
          rest = before' ++ .openTag name raw selfClosing :: after := by
        rcases List.append_eq_append_iff.mp htaken with ⟨more, rfl, hmore⟩ | ⟨more, hbefore, hrest⟩
        · cases more with
          | nil => exact ⟨[], by simp, hmore.symm⟩
          | cons t more =>
            obtain ⟨rfl, -⟩ := List.cons.inj hmore
            exact absurd (List.mem_append_right _ List.mem_cons_self) (hopens name raw selfClosing)
        · exact ⟨more, hbefore, hrest⟩
      obtain ⟨fuel', st', hfuel', hshown, hrun⟩ := @ih before' st₁ (by
        simp only [List.length_append, List.length_cons] at hfuel ⊢
        omega)
      refine ⟨fuel', st', hfuel', ?_, ?_⟩
      · have hboth : (st₁.shown ++ solid before') ++
            solid (.openTag name raw selfClosing :: after) =
            (st.shown ++ solid (token :: (taken ++ before'))) ++
            solid (.openTag name raw selfClosing :: after) := by
          rw [List.append_assoc, List.append_assoc, ← solid_append, ← solid_append]
          exact hcontent
        rw [hshown]
        exact List.append_cancel_right hboth
      · rw [← hrun, List.cons_append, run_cons, hstep]

/-! ## Around the content -/

section content

variable {name raw : List Char}

/-- Content is kept in raw elements only. -/
theorem isRawElement_of_isVerbatim (h : isVerbatim name = true) : isRawElement name = true := by
  unfold isVerbatim at h
  rw [Bool.or_eq_true, beq_iff_eq, beq_iff_eq] at h
  rcases h with rfl | rfl <;> decide

/-- The start tag goes on a new line, and the content behind it. -/
theorem step_keeps (settings : Settings) (hname : isVerbatim name = true) (hraw : IsTag raw)
    (st : State) (body : List Char) (rest : List Token) :
    ∃ st', step settings st (.openTag name raw false) (.other body :: rest) = (st', rest) ∧
      st'.lines ≠ [] ∧ st'.verbatim = some name ∧
      st'.page =
        st.text ++ (List.replicate st.depth settings.indentUnit).flatten ++ (raw ++ body) := by
  have hrawname := isRawElement_of_isVerbatim hname
  unfold step
  dsimp only
  rw [if_neg Bool.false_ne_true]
  show ∃ st', openElement settings.indentUnit st name raw false (.other body :: rest) = _ ∧ _
  unfold openElement
  dsimp only
  rw [if_neg Bool.false_ne_true, if_pos hrawname, if_pos hname, Text.trim_eq_self hraw.trimmed]
  refine ⟨_, rfl, List.cons_ne_nil _ _, rfl, ?_⟩
  show Text.lined st.lines ++ ((List.replicate st.depth settings.indentUnit).flatten ++ raw ++ body)
    = Text.lined st.lines ++ _ ++ _
  simp only [List.append_assoc]

/-- Its end tag goes directly behind the content. -/
theorem page_closes (settings : Settings) {st : State} (hlines : st.lines ≠ [])
    (hst : st.verbatim = some name) (rest : List Token) :
    (step settings st (.closeTag name raw) rest).1.page = st.page ++ raw := by
  have hkept : (st.verbatim == some name && !st.lines.isEmpty) = true := by
    rw [Bool.and_eq_true, hst, Bool.not_eq_true', List.isEmpty_eq_false_iff]
    exact ⟨beq_self_eq_true _, hlines⟩
  show (closeElement settings.indentUnit st name raw).page = _
  unfold closeElement
  dsimp only
  rw [if_pos hkept]
  exact page_append { st with depth := st.depth - 1 } raw hlines

/-- Anything else goes on a line of its own. -/
theorem page_breaks (settings : Settings) {st : State} (hlines : st.lines ≠ [])
    (hst : st.verbatim = some name) {token : Token}
    (htoken : (∃ name', token = .closeTag name' raw ∧ name' ≠ name) ∨
      (token = .text raw ∧ raw.head? = some '<')) (rest : List Token) :
    st.page ++ ['\n'] <+: (step settings st token rest).1.page := by
  have hpage : st.text = st.page ++ ['\n'] := by
    obtain ⟨lines, depth, verbatim⟩ := st
    obtain ⟨line, lines, rfl⟩ := List.exists_cons_of_ne_nil hlines
    show Text.lined (line :: lines) = _
    rw [Text.lined_cons, ← List.append_assoc]
    rfl
  rw [← hpage]
  rcases htoken with ⟨name', rfl, hname⟩ | ⟨rfl, hhead⟩
  · show st.text <+: (closeElement settings.indentUnit st name' raw).page
    have hother : (some name == some name') = false := by
      rw [beq_eq_false_iff_ne]
      rintro ⟨⟩
      exact hname rfl
    unfold closeElement
    dsimp only
    rw [hst, hother, Bool.false_and, if_neg Bool.false_ne_true]
    exact List.prefix_append _ _
  · show st.text <+: (emitNonempty settings.indentUnit st (collapse raw)).page
    have hne : collapse raw ≠ [] := by
      intro hnil
      have hstrip := strip_collapse raw
      obtain ⟨tail, rfl⟩ := List.head?_eq_some_iff.mp hhead
      rw [hnil, Text.strip_cons, if_neg (by decide)] at hstrip
      exact absurd hstrip nofun
    unfold emitNonempty
    rw [if_neg (by simpa using hne)]
    exact List.prefix_append _ _

end content

/-- The content is on the page behind its start tag, with the tokens behind it left to write. -/
theorem exists_page (settings : Settings) {text name raw body : List Char}
    {before ts : List Token} (hname : isVerbatim name = true) (hraw : IsTag raw)
    (htokens : tokenize true text = before ++ .openTag name raw false :: .other body :: ts) :
    ∃ fuel st start, beautify settings true text = (run settings (fuel + 1) st ts).text ∧
      st.lines ≠ [] ∧ st.verbatim = some name ∧ st.page = start ++ (raw ++ body) ∧
      Text.strip start = Text.strip (before.flatMap Token.raw) := by
  obtain ⟨fuel, st, hfuel, hshown, hrun⟩ := run_reaches settings {} (Nat.le_refl
    (before ++ .openTag name raw false :: .other body :: ts).length)
  obtain ⟨fuel, rfl⟩ : ∃ n, fuel = n + 2 := ⟨fuel - 2, by
    simp only [List.length_cons] at hfuel
    omega⟩
  obtain ⟨st', hstep, hlines, hst, hpage⟩ := step_keeps settings hname hraw st body ts
  refine ⟨fuel, st', _, ?_, hlines, hst, hpage, ?_⟩
  · unfold beautify
    dsimp only
    rw [htokens, hrun, run_cons, hstep]
  · have hmargin := Text.allBlank_replicate settings.allBlank_indentUnit st.depth
    rw [Text.strip_append, Text.strip_of_blank hmargin, List.append_nil, strip_text, hshown]
    rfl

/-- What is no white space stands in one place. -/
theorem eq_of_strip_eq {a b s t : List Char} {c d : Char} (hc : Text.isBlank c = false)
    (hd : Text.isBlank d = false) (hsplit : a ++ c :: s = b ++ d :: t)
    (hstrip : Text.strip a = Text.strip b) : a = b := by
  induction a generalizing b with
  | nil =>
    cases b with
    | nil => rfl
    | cons e b =>
      obtain ⟨rfl, -⟩ := List.cons.inj hsplit
      rw [Text.strip_cons, hc] at hstrip
      exact absurd hstrip nofun
  | cons e a ih =>
    cases b with
    | nil =>
      obtain ⟨rfl, -⟩ := List.cons.inj hsplit
      rw [Text.strip_cons, hd] at hstrip
      exact absurd hstrip nofun
    | cons f b =>
      obtain ⟨rfl, hrest⟩ := List.cons.inj hsplit
      rw [Text.strip_cons, Text.strip_cons] at hstrip
      congr 1
      refine ih hrest ?_
      split_ifs at hstrip
      · exact hstrip
      · exact (List.cons.inj hstrip).2

/-- The content of `pre` and `textarea` is kept if nothing in it looks like an end tag. For a start
tag that the tokenizer takes for one and the first end tag of the same name behind it, the output
has the characters between them unchanged and between the same two tags, in the place that the
start tag has among the characters of the text, exactly if the content does not hold the characters
that the end tag starts with. -/
theorem beautified_keeps_preformatted (settings : Settings)
    {text name raw body close rest : List Char} {before after : List Token}
    (hname : isVerbatim name = true)
    (htokens : tokenize true text = before ++ .openTag name raw false :: after)
    (hafter : after.flatMap Token.raw = body ++ (close ++ rest))
    (hcontent : Content name body close rest) :
    ∃ out, Backend.beautified ⟨String.ofList text, "html", settings⟩ = .ok (String.ofList out) ∧
      ((∃ front back, out = front ++ (raw ++ (body ++ (close ++ back))) ∧
          Text.strip front = Text.strip (before.flatMap Token.raw)) ↔
        ¬endMark name <:+: body.map Text.lowerAscii) := by
  have hrawname := isRawElement_of_isVerbatim hname
  have hmark : endMark name <:+: (body ++ (close ++ rest)).map Text.lowerAscii := by
    rw [List.map_append, List.map_append]
    exact (hcontent.ends.endMark_isPrefix.trans (List.prefix_append _ _)).isInfix.trans
      (List.suffix_append _ _).isInfix
  -- The content is cut at the first mark.
  obtain ⟨s', hdrop⟩ := (tokenize_eq_iff.mp htokens).drop
  obtain ⟨taken, s, ts, hsplit, hraw, rfl, hts, hfirst⟩ :=
    hdrop.content hrawname hafter hmark
  obtain ⟨back, rfl, rfl, hiff⟩ := hcontent.cut (isRawElement_plain hrawname).2.1 hsplit.symm hfirst
  obtain ⟨fuel, st, start, hout, hlines, hst, hpage, hstart⟩ :=
    exists_page settings hname hraw htokens
  refine ⟨beautify settings true text, beautified_eq settings true text, ?_⟩
  rw [← hiff, hout]
  constructor
  · -- What is cut short is followed by a line break.
    rintro ⟨front, behind, hplaced, hstrip⟩
    by_contra hback
    obtain ⟨tail, htail⟩ := exists_of_endMark hfirst.here
    have hends : ¬StartsEndTag name (back ++ (close ++ rest)) :=
      hcontent.first back ((List.mem_tails _ _).mpr (List.suffix_append _ _)) hback
    rw [htail] at hts hends
    obtain ⟨token, ts', tokenRaw, rfl, htoken⟩ := hts.slash_other hends
    obtain ⟨more, hmore⟩ := (page_breaks settings hlines hst htoken ts').trans
      (page_prefix_run settings fuel _ _)
    rw [run_cons, ← hmore, hpage] at hplaced
    obtain ⟨rawTail, rfl, -⟩ := id hraw
    obtain ⟨c, back, rfl⟩ := List.exists_cons_of_ne_nil hback
    obtain rfl : c = '<' := (List.cons.inj htail).1
    simp only [List.append_assoc, List.cons_append] at hplaced
    obtain rfl : start = front := eq_of_strip_eq (by rfl) (by rfl) hplaced
      (hstart.trans hstrip.symm)
    simp at hplaced
  · -- What is not is followed by the end tag.
    rintro rfl
    obtain ⟨closeRaw, rfl, hclose, hsame⟩ := hcontent.ends
    obtain ⟨ts', hrest⟩ := exists_cuts true rest
    obtain rfl := hts.unique (.closeTag hclose hrest)
    obtain ⟨more, hmore⟩ := page_prefix_run settings fuel
      (step settings st (.closeTag (tagName true closeRaw) ('<' :: '/' :: closeRaw)) ts').1 ts'
    rw [page_closes settings hlines (hst.trans (congrArg some hsame.symm)), hpage] at hmore
    refine ⟨start, more, ?_, hstart⟩
    rw [run_cons]
    refine hmore.symm.trans ?_
    simp only [List.append_assoc, List.append_nil]

/-- A case of this: the name in capital letters, and white space that would not stay otherwise. -/
theorem beautified_keeps_preformatted_pre :
    isVerbatim "pre".toList = true ∧
      tokenize true "x <PRE> a\n  b </Pre>".toList = [.text "x ".toList] ++
        .openTag "pre".toList "<PRE>".toList false ::
          [.other " a\n  b ".toList, .closeTag "pre".toList "</Pre>".toList] ∧
      Content "pre".toList " a\n  b ".toList "</Pre>".toList [] ∧
      ∃ out, Backend.beautified ⟨String.ofList "x <PRE> a\n  b </Pre>".toList, "html",
          Settings.resolve {} "html"⟩ = .ok (String.ofList out) ∧
        ∃ front back, out = front ++ ("<PRE>".toList ++ (" a\n  b ".toList ++
            ("</Pre>".toList ++ back))) ∧
          Text.strip front = Text.strip ([Token.text "x ".toList].flatMap Token.raw) := by
  have hname : isVerbatim "pre".toList = true := by decide
  have htokens : tokenize true "x <PRE> a\n  b </Pre>".toList = [.text "x ".toList] ++
      .openTag "pre".toList "<PRE>".toList false ::
        [.other " a\n  b ".toList, .closeTag "pre".toList "</Pre>".toList] := by decide +kernel
  have hcontent : Content "pre".toList " a\n  b ".toList "</Pre>".toList [] :=
    ⟨⟨"Pre>".toList, by decide, ⟨"/Pre>".toList, by decide, by decide⟩, by decide⟩,
      by decide +kernel⟩
  obtain ⟨out, hout, hkept⟩ := beautified_keeps_preformatted (Settings.resolve {} "html") hname
    htokens (by decide) hcontent
  exact ⟨hname, htokens, hcontent, out, hout, hkept.mpr (by decide +kernel)⟩

/-- Where the content holds the characters, it is cut there: here in front of a tag of a longer
name, which goes on a line of its own. -/
theorem beautified_cuts_preformatted :
    isVerbatim "pre".toList = true ∧
      tokenize true "<pre>a</prefix>b</pre>".toList =
        .openTag "pre".toList "<pre>".toList false ::
          [.other "a".toList, .closeTag "prefix".toList "</prefix>".toList, .text "b".toList,
            .closeTag "pre".toList "</pre>".toList] ∧
      Content "pre".toList "a</prefix>b".toList "</pre>".toList [] ∧
      Backend.beautified ⟨String.ofList "<pre>a</prefix>b</pre>".toList, "html",
        Settings.resolve {} "html"⟩ = .ok (String.ofList "<pre>a\n</prefix>\nb</pre>\n".toList) ∧
      ¬"a</prefix>b".toList <:+: "<pre>a\n</prefix>\nb</pre>\n".toList := by
  have hout : beautify (Settings.resolve {} "html") true "<pre>a</prefix>b</pre>".toList =
      "<pre>a\n</prefix>\nb</pre>\n".toList := by decide +kernel
  refine ⟨by decide, by decide +kernel, ?_, ?_, by decide +kernel⟩
  · exact ⟨⟨"pre>".toList, by decide, ⟨"/pre>".toList, by decide, by decide⟩, by decide⟩,
      by decide +kernel⟩
  · rw [← hout]
    exact beautified_eq _ true _

end CodeTidy.Markup
