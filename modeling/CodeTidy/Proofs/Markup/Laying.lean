import CodeTidy.Proofs.Markup.Conservation

/-!
# The rows of a layout

`Lays` relates tokens at a depth to the text that they are laid out as, with one rule for each step
of the layout that does not keep content as it is. A run from any state without kept content writes
what the rules say, and the rules apply to all tokens among which no element of kept content starts.
-/

namespace CodeTidy.Markup

variable {settings : Settings} {d : ℕ}

/-! ## Rows -/

/-- The indentation at a depth. -/
def margin (settings : Settings) (d : ℕ) : List Char :=
  (List.replicate d settings.indentUnit).flatten

/-- A line at a depth, with its line feed. -/
def row (settings : Settings) (d : ℕ) (line : List Char) : List Char :=
  margin settings d ++ (line ++ ['\n'])

/-- A line that is left out if it is empty. -/
def written (settings : Settings) (d : ℕ) (line : List Char) : List Char :=
  if line.isEmpty then [] else row settings d line

/-- The lines of the content of an element, trimmed, without the empty ones. -/
def inner (content : List Char) : List (List Char) :=
  ((Text.lines content).map Text.trim).filter (!·.isEmpty)

/-- Indentation is white space. -/
theorem allBlank_margin (settings : Settings) (d : ℕ) : Text.allBlank (margin settings d) = true :=
  Text.allBlank_replicate settings.allBlank_indentUnit d

/-- A line is written behind the others. -/
theorem text_emit (st : State) (line : List Char) :
    (st.emit settings.indentUnit line).text = st.text ++ row settings st.depth line := by
  show Text.lined (_ :: st.lines) = Text.lined st.lines ++ _
  rw [Text.lined_cons]
  unfold row margin
  rw [List.append_assoc]

/-- Several lines are written one behind the other. -/
theorem text_foldl_emit (settings : Settings) (st : State) (lines : List (List Char)) :
    (lines.foldl (State.emit settings.indentUnit) st).text =
        st.text ++ lines.flatMap (row settings st.depth) ∧
      (lines.foldl (State.emit settings.indentUnit) st).depth = st.depth ∧
      (lines.foldl (State.emit settings.indentUnit) st).verbatim = st.verbatim := by
  induction lines generalizing st with
  | nil => exact ⟨(List.append_nil _).symm, rfl, rfl⟩
  | cons line lines ih =>
    obtain ⟨htext, hdepth, hverbatim⟩ := ih (st.emit settings.indentUnit line)
    refine ⟨?_, hdepth, hverbatim⟩
    rw [List.foldl_cons, htext, text_emit, List.flatMap_cons, List.append_assoc]
    rfl

/-- An empty line writes nothing. -/
theorem text_emitNonempty (settings : Settings) (st : State) (line : List Char) :
    (emitNonempty settings.indentUnit st line).text = st.text ++ written settings st.depth line ∧
      (emitNonempty settings.indentUnit st line).depth = st.depth ∧
      (emitNonempty settings.indentUnit st line).verbatim = st.verbatim := by
  unfold emitNonempty written
  split_ifs
  · exact ⟨(List.append_nil _).symm, rfl, rfl⟩
  · exact ⟨text_emit st line, rfl, rfl⟩

/-! ## Elements on one line -/

/-- An element is on one line if it is empty, or holds a short text only. -/
theorem inline?_eq_some_iff {name raw line : List Char} {ts rest : List Token} :
    inline? settings d name raw ts = some (line, rest) ↔
      (∃ raw', ts = .closeTag name raw' :: rest ∧ line = raw ++ raw') ∨
      ∃ t raw', ts = .text t :: .closeTag name raw' :: rest ∧ isRawElement name = false ∧
        line = raw ++ collapse t ++ raw' ∧
        Text.byteLength line + d * settings.indentColumns ≤ settings.lineWrap.limit := by
  constructor
  · intro h
    unfold inline? at h
    split at h
    · rename_i name' raw' rest'
      obtain ⟨hname, h⟩ := Option.ite_none_right_eq_some.mp h
      obtain ⟨rfl, rfl⟩ := Prod.mk.inj (Option.some.inj h)
      rw [beq_iff_eq.mp hname]
      exact .inl ⟨raw', rfl, rfl⟩
    · rename_i t name' raw' rest'
      obtain ⟨hname, h⟩ := Option.ite_none_right_eq_some.mp h
      obtain ⟨hfits, h⟩ := Option.ite_none_right_eq_some.mp h
      obtain ⟨rfl, rfl⟩ := Prod.mk.inj (Option.some.inj h)
      rw [Bool.and_eq_true, beq_iff_eq, Bool.not_eq_true'] at hname
      rw [hname.1]
      exact .inr ⟨t, raw', rfl, hname.2, rfl, hfits⟩
    · exact absurd h nofun
  · rintro (⟨raw', rfl, rfl⟩ | ⟨t, raw', rfl, hname, rfl, hfits⟩)
    · exact if_pos (beq_self_eq_true name)
    · show (if name == name && !isRawElement name then _ else none) = _
      rw [beq_self_eq_true, hname, Bool.not_false, Bool.and_self, if_pos rfl]
      exact if_pos hfits

/-! ## All tokens -/

/-- Tokens and the text that they are laid out as from a depth on. -/
inductive Lays (settings : Settings) : ℕ → List Token → List Char → Prop
  | nil {d : ℕ} : Lays settings d [] []
  | inline {d : ℕ} {name raw line out : List Char} {selfClosing : Bool} {ts rest : List Token}
    (hself : selfClosing = false) (hline : inline? settings d name raw ts = some (line, rest))
    (h : Lays settings d rest out) :
    Lays settings d (.openTag name raw selfClosing :: ts) (row settings d line ++ out)
  | selfClosing {d : ℕ} (name raw : List Char) {out : List Char} {selfClosing : Bool}
    {ts : List Token} (hself : selfClosing = true) (h : Lays settings d ts out) :
    Lays settings d (.openTag name raw selfClosing :: ts) (row settings d (Text.trim raw) ++ out)
  /-- What is in an element is one deeper. -/
  | opened {d : ℕ} {name raw out : List Char} {selfClosing : Bool} {ts : List Token}
    (hself : selfClosing = false) (hline : inline? settings d name raw ts = none)
    (hother : ∀ content rest, ts = .other content :: rest → isRawElement name = false)
    (h : Lays settings (d + 1) ts out) :
    Lays settings d (.openTag name raw selfClosing :: ts) (row settings d (Text.trim raw) ++ out)
  /-- The lines of a raw element are laid out with its start tag. -/
  | rawElement {d : ℕ} {name : List Char} (raw content : List Char) {out : List Char}
    {selfClosing : Bool} {ts : List Token} (hself : selfClosing = false)
    (hname : isRawElement name = true) (hverbatim : isVerbatim name = false)
    (h : Lays settings (d + 1) ts out) :
    Lays settings d (.openTag name raw selfClosing :: .other content :: ts)
      (row settings d (Text.trim raw) ++ ((inner content).flatMap (row settings (d + 1)) ++ out))
  | closeTag {d : ℕ} (name raw : List Char) {out : List Char} {ts : List Token}
    (h : Lays settings (d - 1) ts out) :
    Lays settings d (.closeTag name raw :: ts) (row settings (d - 1) (Text.trim raw) ++ out)
  | text {d : ℕ} (t : List Char) {out : List Char} {ts : List Token} (h : Lays settings d ts out) :
    Lays settings d (.text t :: ts) (written settings d (collapse t) ++ out)
  | other {d : ℕ} (raw : List Char) {out : List Char} {ts : List Token}
    (h : Lays settings d ts out) :
    Lays settings d (.other raw :: ts) (written settings d (Text.trim raw) ++ out)

/-- A step writes the first rows and leaves a state from which the others are written. -/
theorem text_run_step {st st' : State} {token : Token} {ts rest : List Token}
    {first out : List Char} {fuel : ℕ} (hfuel : (token :: ts).length ≤ fuel)
    (hstep : step settings st token ts = (st', rest)) (hrest : rest.length ≤ ts.length)
    (hfirst : st'.text = st.text ++ first)
    (hrun : ∀ fuel, rest.length ≤ fuel → (run settings fuel st' rest).text = st'.text ++ out) :
    (run settings fuel st (token :: ts)).text = st.text ++ (first ++ out) := by
  obtain ⟨fuel, rfl⟩ : ∃ n, fuel = n + 1 := ⟨fuel - 1, by
    rw [List.length_cons] at hfuel
    omega⟩
  rw [run_cons, hstep]
  dsimp only
  rw [hrun fuel (hrest.trans (Nat.le_of_succ_le_succ hfuel)), hfirst, List.append_assoc]

/-- The state behind a start tag, one deeper. -/
def State.enter (settings : Settings) (st : State) (raw : List Char) : State :=
  { st.emit settings.indentUnit (Text.trim raw) with depth := st.depth + 1 }

/-- The step for a start tag whose element is on one line. -/
theorem step_inline {st : State} {name raw line : List Char} {ts rest : List Token}
    (hline : inline? settings st.depth name raw ts = some (line, rest)) :
    step settings st (.openTag name raw false) ts = (st.emit settings.indentUnit line, rest) := by
  unfold step
  dsimp only
  rw [if_neg Bool.false_ne_true, hline]

/-- The step for a start tag whose element is not. -/
theorem step_opened {st : State} {name raw : List Char} {ts : List Token}
    (hline : inline? settings st.depth name raw ts = none)
    (hother : ∀ content rest, ts = .other content :: rest → isRawElement name = false) :
    step settings st (.openTag name raw false) ts = (st.enter settings raw, ts) := by
  unfold step
  dsimp only
  rw [if_neg Bool.false_ne_true, hline]
  show openElement settings.indentUnit st name raw false ts = _
  unfold openElement
  dsimp only
  rw [if_neg Bool.false_ne_true]
  cases ts with
  | nil => rfl
  | cons token rest =>
    cases token with
    | other content =>
      dsimp only
      rw [hother content rest rfl, if_neg Bool.false_ne_true]
      rfl
    | openTag | closeTag | text => rfl

/-- The step for the start tag of a raw element. -/
theorem step_rawElement {st : State} {name raw content : List Char} {rest : List Token}
    (hname : isRawElement name = true) (hverbatim : isVerbatim name = false) :
    step settings st (.openTag name raw false) (.other content :: rest) =
      ((inner content).foldl (State.emit settings.indentUnit) (st.enter settings raw), rest) := by
  show openElement settings.indentUnit st name raw false (.other content :: rest) = _
  unfold openElement
  dsimp only
  rw [if_neg Bool.false_ne_true, if_pos hname, hverbatim, if_neg Bool.false_ne_true]
  rfl

/-- The step for an end tag, if no content has been kept. -/
theorem step_closeTag {st : State} (hst : st.verbatim = none) (name raw : List Char)
    (rest : List Token) :
    step settings st (.closeTag name raw) rest =
      (({ st with depth := st.depth - 1 } : State).emit settings.indentUnit (Text.trim raw),
        rest) := by
  show (closeElement settings.indentUnit st name raw, rest) = _
  unfold closeElement
  rw [hst]
  rfl

/-- A run writes what the rules say. -/
theorem Lays.text_run {ts : List Token} {out : List Char} (h : Lays settings d ts out) {fuel : ℕ}
    (hfuel : ts.length ≤ fuel) {st : State} (hdepth : st.depth = d) (hst : st.verbatim = none) :
    (run settings fuel st ts).text = st.text ++ out := by
  induction h generalizing fuel st with
  | nil =>
    rw [List.append_nil]
    cases fuel <;> rfl
  | inline hself hline h ih =>
    subst hself hdepth
    exact text_run_step hfuel (step_inline hline) (solid_of_inline? hline).2 (text_emit st _)
      fun fuel hfuel => ih hfuel rfl hst
  | selfClosing name raw hself h ih =>
    subst hself hdepth
    exact text_run_step hfuel rfl (Nat.le_refl _) (text_emit st _)
      fun fuel hfuel => ih hfuel rfl hst
  | opened hself hline hother h ih =>
    subst hself hdepth
    exact text_run_step hfuel (step_opened hline hother) (Nat.le_refl _) (text_emit st _)
      fun fuel hfuel => ih hfuel rfl hst
  | rawElement raw content hself hname hverbatim h ih =>
    subst hself hdepth
    obtain ⟨htext, hdepth, hinner⟩ :=
      text_foldl_emit settings (st.enter settings raw) (inner content)
    rw [← List.append_assoc (row settings st.depth (Text.trim raw))]
    refine text_run_step hfuel (step_rawElement hname hverbatim) (Nat.le_succ _) ?_
      fun fuel hfuel => ih hfuel hdepth (hinner.trans hst)
    rw [htext, ← List.append_assoc]
    exact congrArg (· ++ _) (text_emit st _)
  | closeTag name raw h ih =>
    subst hdepth
    exact text_run_step hfuel (step_closeTag hst name raw _) (Nat.le_refl _)
      (text_emit { st with depth := st.depth - 1 } _) fun fuel hfuel => ih hfuel rfl hst
  | text t h ih =>
    subst hdepth
    obtain ⟨htext, hdepth, hverbatim⟩ := text_emitNonempty settings st (collapse t)
    exact text_run_step hfuel rfl (Nat.le_refl _) htext
      fun fuel hfuel => ih hfuel hdepth (hverbatim.trans hst)
  | other raw h ih =>
    subst hdepth
    obtain ⟨htext, hdepth, hverbatim⟩ := text_emitNonempty settings st (Text.trim raw)
    exact text_run_step hfuel rfl (Nat.le_refl _) htext
      fun fuel hfuel => ih hfuel hdepth (hverbatim.trans hst)

/-- Does the token start an element whose content is kept as it is? -/
def Token.startsVerbatim : Token → Bool
  | .openTag name _ _ => isVerbatim name
  | _ => false

/-- The rules apply if no element of kept content starts. -/
theorem exists_lays (settings : Settings) (d : ℕ) {ts : List Token}
    (h : ∀ t ∈ ts, t.startsVerbatim = false) :
    ∃ out, Lays settings d ts out := by
  -- By induction on the number of tokens, since a rule may take several.
  induction hn : ts.length using Nat.strong_induction_on generalizing d ts with
  | _ n ih =>
    have hrest : ∀ (e : ℕ) (taken : List Token) {rest : List Token}, ts = taken ++ rest →
        taken ≠ [] → ∃ out, Lays settings e rest out := by
      rintro e taken rest rfl htaken
      have hpos := List.length_pos_of_ne_nil htaken
      rw [List.length_append] at hn
      exact ih rest.length (by omega) e (fun t ht => h t (List.mem_append_right _ ht)) rfl
    cases ts with
    | nil => exact ⟨_, .nil⟩
    | cons token ts =>
      have hnext : ∀ e, ∃ out, Lays settings e ts out := fun e =>
        hrest e [token] rfl (List.cons_ne_nil _ _)
      cases token with
      | closeTag =>
        obtain ⟨out, hout⟩ := hnext (d - 1)
        exact ⟨_, .closeTag _ _ hout⟩
      | text =>
        obtain ⟨out, hout⟩ := hnext d
        exact ⟨_, .text _ hout⟩
      | other =>
        obtain ⟨out, hout⟩ := hnext d
        exact ⟨_, .other _ hout⟩
      | openTag name raw selfClosing =>
        by_cases hself : selfClosing = true
        · obtain ⟨out, hout⟩ := hnext d
          exact ⟨_, .selfClosing _ _ hself hout⟩
        replace hself := Bool.eq_false_iff.mpr hself
        cases hline : inline? settings d name raw ts with
        | some found =>
          obtain ⟨line, rest⟩ := found
          have hsuffix : ∃ taken, ts = taken ++ rest := by
            rcases inline?_eq_some_iff.mp hline with ⟨raw', rfl, -⟩ | ⟨t, raw', rfl, -⟩
            · exact ⟨[.closeTag name raw'], rfl⟩
            · exact ⟨[.text t, .closeTag name raw'], rfl⟩
          obtain ⟨taken, rfl⟩ := hsuffix
          obtain ⟨out, hout⟩ := hrest d (.openTag name raw selfClosing :: taken) rfl
            (List.cons_ne_nil _ _)
          exact ⟨_, .inline hself hline hout⟩
        | none =>
          by_cases hother : ∀ content rest, ts = .other content :: rest → isRawElement name = false
          · obtain ⟨out, hout⟩ := hnext (d + 1)
            exact ⟨_, .opened hself hline hother hout⟩
          · push Not at hother
            obtain ⟨content, rest, rfl, hname⟩ := hother
            obtain ⟨out, hout⟩ := hrest (d + 1) [.openTag name raw selfClosing, .other content] rfl
              (List.cons_ne_nil _ _)
            rw [ne_eq, Bool.not_eq_false] at hname
            exact ⟨_, .rawElement _ _ hself hname (h _ List.mem_cons_self) hout⟩

end CodeTidy.Markup
