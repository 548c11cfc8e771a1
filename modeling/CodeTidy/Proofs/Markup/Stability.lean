import CodeTidy.Proofs.Markup.Reflowing
import CodeTidy.Settings.Resolve

/-!
# Markup that has been laid out stays as it is

The first layout puts white space between the tokens, so the second finds other tokens: texts of
white space, texts that have grown by the white space around them, and raw content with other lines.
`Again` says that the output, with any text without tags in front of it, is cut into tokens that are
laid out as that text and the output. It is proved by induction on the rules of the first layout.
The text in front is what has been written since the last tag, so that the next token can take it
up.
-/

namespace CodeTidy.Markup

variable {settings : Settings} {html : Bool} {d : ℕ} {ts : List Token} {out : List Char}

/-! ## Tags in the output -/

/-- Tags are tags. -/
def Token.Whole : Token → Prop
  | .openTag _ raw _ => IsTag raw
  | .closeTag _ raw => IsTag raw
  | _ => True

/-- Where a text is cut, all tags are. -/
theorem Cuts.whole {s : List Char} (h : Cuts html ts s) : ∀ t ∈ ts, t.Whole := by
  induction h with
  | nil => exact fun t ht => absurd ht List.not_mem_nil
  | text _ _ _ _ ih | comment _ _ ih | declaration _ _ _ ih =>
    exact List.forall_mem_cons.mpr ⟨trivial, ih⟩
  | openText | openComment => exact List.forall_mem_singleton.mpr trivial
  | closeTag hraw _ ih | openTag hraw _ _ _ ih => exact List.forall_mem_cons.mpr ⟨hraw, ih⟩
  | rawElement hraw _ _ _ _ ih =>
    exact List.forall_mem_cons.mpr ⟨hraw, List.forall_mem_cons.mpr ⟨trivial, ih⟩⟩

/-- What is laid out has no mark that was not there. -/
theorem Lays.lacks {name s : List Char} (hname : isRawElement name = true)
    (h : Lays settings d ts out) (hcuts : Cuts html ts s) (hs : Lacks name s) :
    Lacks name out := by
  have hts : ∀ t ∈ ts, t.Whole ∧ Lacks name t.raw := fun t ht =>
    ⟨hcuts.whole t ht, hs.of_isInfix (hcuts.raw_isInfix ht)⟩
  clear hcuts hs
  have htrim : ∀ {raw}, Lacks name raw → Lacks name (Text.trim raw) := fun h =>
    h.reflows hname (Text.reflows_trim _)
  have hwritten : ∀ {d line out}, Lacks name line → Lacks name out →
      Lacks name (written settings d line ++ out) := by
    intro d line out hline hout
    unfold written
    split_ifs
    · exact hout
    · exact (lacks_row_iff hname settings d).mpr ⟨hline, hout⟩
  induction h with
  | nil => exact fun h => absurd (List.infix_nil.mp h) (List.cons_ne_nil _ _)
  | @inline d name' raw line out selfClosing ts rest _ hline _ ih =>
    obtain ⟨⟨hraw, hlacks⟩, hts⟩ := List.forall_mem_cons.mp hts
    rw [lacks_row_iff hname]
    rcases inline?_eq_some_iff.mp hline with ⟨raw', rfl, rfl⟩ | ⟨t, raw', rfl, -, rfl, -⟩
    · obtain ⟨⟨hraw', hlacks'⟩, hts⟩ := List.forall_mem_cons.mp hts
      exact ⟨hlacks.tag_append hname hraw hlacks', ih hts⟩
    · obtain ⟨⟨-, ht⟩, hts⟩ := List.forall_mem_cons.mp hts
      obtain ⟨⟨hraw', hlacks'⟩, hts⟩ := List.forall_mem_cons.mp hts
      refine ⟨?_, ih hts⟩
      rw [List.append_assoc]
      refine hlacks.tag_append hname hraw ?_
      obtain ⟨raw', rfl, -⟩ := id hraw'
      exact (ht.reflows hname (reflows_collapse t)).append_bracket hname hlacks'
  | selfClosing _ _ _ _ ih | opened _ _ _ _ ih =>
    obtain ⟨⟨-, hlacks⟩, hts⟩ := List.forall_mem_cons.mp hts
    exact (lacks_row_iff hname settings _).mpr ⟨htrim hlacks, ih hts⟩
  | rawElement raw content _ _ _ _ ih =>
    obtain ⟨⟨-, hlacks⟩, hts⟩ := List.forall_mem_cons.mp hts
    obtain ⟨⟨-, hcontent⟩, hts⟩ := List.forall_mem_cons.mp hts
    rw [lacks_row_iff hname, lacks_rows_iff hname]
    exact ⟨htrim hlacks, fun l hl => hcontent.of_isInfix ((separated_inner content).1.isInfix l hl),
      ih hts⟩
  | closeTag _ _ _ ih =>
    obtain ⟨⟨-, hlacks⟩, hts⟩ := List.forall_mem_cons.mp hts
    exact (lacks_row_iff hname settings _).mpr ⟨htrim hlacks, ih hts⟩
  | text _ _ ih =>
    obtain ⟨⟨-, hlacks⟩, hts⟩ := List.forall_mem_cons.mp hts
    exact hwritten (hlacks.reflows hname (reflows_collapse _)) (ih hts)
  | other _ _ ih =>
    obtain ⟨⟨-, hlacks⟩, hts⟩ := List.forall_mem_cons.mp hts
    exact hwritten (htrim hlacks) (ih hts)

/-! ## Text in front of the output -/

/-- Tokens with a text in front of them, unless it is empty. -/
def withText (p : List Char) (ts : List Token) : List Token :=
  if p.isEmpty then ts else .text p :: ts

/-- They are cut if the text has no opening bracket. -/
theorem Cuts.behind {p s : List Char} (hplain : '<' ∉ p) (hs : ∀ c ∈ s.head?, c = '<')
    (h : Cuts html ts s) : Cuts html (withText p ts) (p ++ s) := by
  unfold withText
  cases p with
  | nil => exact h
  | cons c p => exact .text (List.cons_ne_nil _ _) hplain hs h

/-- They are laid out as the text and the tokens. -/
theorem Lays.behind (p : List Char) (h : Lays settings d ts out) :
    Lays settings d (withText p ts) (written settings d (collapse p) ++ out) := by
  unfold withText
  cases p with
  | nil => exact h
  | cons c p => exact .text _ h

/-- There is no tag in the indentation. -/
theorem bracket_not_mem_margin (settings : Settings) (d : ℕ) : '<' ∉ margin settings d := by
  intro hmem
  have hblank := Text.allBlank_iff.mp (allBlank_margin settings d) _ hmem
  exact absurd hblank (by decide)

/-- Nor in a line break with indentation. -/
theorem bracket_not_mem_gap (settings : Settings) (d : ℕ) : '<' ∉ '\n' :: margin settings d := by
  rw [List.mem_cons, not_or]
  exact ⟨by decide, bracket_not_mem_margin settings d⟩

/-- Nor in a row without a tag. -/
theorem bracket_not_mem_written (settings : Settings) (d : ℕ) {p t : List Char} (hp : '<' ∉ p)
    (ht : '<' ∉ t) : '<' ∉ p ++ written settings d (collapse t) := by
  have hcollapse : '<' ∉ collapse t := fun h => ht ((mem_collapse_iff (by decide)).mp h)
  unfold written row
  split_ifs <;> simp [hp, hcollapse, bracket_not_mem_margin]

/-- Nothing is written for white space. -/
theorem written_of_blank (settings : Settings) (d : ℕ) {g : List Char}
    (hg : Text.allBlank g = true) : written settings d (collapse g) = [] := by
  rw [collapse_of_blank hg]
  rfl

/-- A text is the same when it has been written, with white space in front of it. -/
theorem collapse_written (settings : Settings) (d : ℕ) {p : List Char}
    (hp : Text.allBlank p = true) (t : List Char) :
    collapse (p ++ written settings d (collapse t)) = collapse t := by
  unfold written row
  split_ifs with hempty
  · rw [List.append_nil, collapse_of_blank hp, List.isEmpty_iff.mp hempty]
  · rw [← List.append_assoc, collapse_around (Text.allBlank_append hp (allBlank_margin settings d))
      (by decide), collapse_collapse]

/-- Behind a text `p`, tokens `ts` have become `ts'`, which start with a text. If an end tag follows
it, the same end tag followed `p`, or another text. -/
def Follows (p : List Char) (ts ts' : List Token) : Prop :=
  p ≠ [] → ∃ w rest, ts' = .text w :: rest ∧ ∀ name raw more, rest = .closeTag name raw :: more →
    (collapse w = collapse p ∧ ∃ more', ts = .closeTag name raw :: more') ∨
      ∃ t more', ts = .text t :: .closeTag name raw :: more' ∧ '<' ∉ t ∧ collapse w = collapse t

/-- The text `out`, with `p` in front of it, is cut into tokens that are laid out as `p` and `out`.
It has been laid out for `ts`. -/
def Again (html : Bool) (settings : Settings) (d : ℕ) (p : List Char) (ts : List Token)
    (out : List Char) : Prop :=
  ∃ ts', Cuts html ts' (p ++ out) ∧
    Lays settings d ts' (written settings d (collapse p) ++ out) ∧ Follows p ts ts'

/-- A row that starts with a tag ends the text in front of it. -/
theorem again_row {p line out : List Char} {e : ℕ} {ts₁ : List Token} (hplain : '<' ∉ p)
    (hline : ∃ tail, line = '<' :: tail) (hcuts : Cuts html ts₁ (line ++ '\n' :: out))
    (hlays : Lays settings d ts₁ (row settings e line ++ out))
    (hends : ∀ name raw more, ts₁ = .closeTag name raw :: more →
      ∃ more', ts = .closeTag name raw :: more') :
    Again html settings d p ts (row settings e line ++ out) := by
  have hcollapse : collapse (p ++ margin settings e) = collapse p :=
    collapse_around (g := []) rfl (allBlank_margin settings e) p
  have hgap : '<' ∉ p ++ margin settings e := by
    rw [List.mem_append, not_or]
    exact ⟨hplain, bracket_not_mem_margin settings e⟩
  refine ⟨withText (p ++ margin settings e) ts₁, ?_, ?_, ?_⟩
  · have hbehind := hcuts.behind hgap (by
      obtain ⟨tail, rfl⟩ := hline
      simp)
    unfold row
    simpa using hbehind
  · rw [← hcollapse]
    exact hlays.behind _
  · intro hp
    refine ⟨p ++ margin settings e, ts₁, ?_, fun name raw more hmore => .inl ?_⟩
    · unfold withText
      rw [if_neg (by simp [hp])]
    · exact ⟨hcollapse, hends name raw more hmore⟩

/-- Behind a line break nothing but the output is laid out. -/
theorem Again.lineBreak (h : Again html settings d ['\n'] ts out) :
    ∃ ts', Cuts html ts' ('\n' :: out) ∧ Lays settings d ts' out ∧ Follows ['\n'] ts ts' := by
  obtain ⟨ts', hcuts, hlays, hfollows⟩ := h
  rw [written_of_blank settings d (by decide)] at hlays
  exact ⟨ts', hcuts, hlays, hfollows⟩

/-! ## Pieces that are no tags -/

/-- There is no white space around a comment. -/
theorem IsComment.trimmed {raw : List Char} (h : IsComment raw) : Text.Trimmed raw := by
  obtain ⟨hstarts, x, rfl, -⟩ := h
  obtain ⟨tail, htail⟩ := bracket_of_comment hstarts
  refine ⟨?_, ?_⟩
  · intro c hc
    rw [htail] at hc
    obtain rfl := Option.some.inj hc
    rfl
  · intro c hc
    rw [List.getLast?_append_of_ne_nil _ (by decide)] at hc
    obtain rfl := Option.some.inj hc
    rfl

/-- A comment or declaration is one when it is laid out with other white space, and a line break
behind it. If it is not closed the line break belongs to it. -/
theorem other_again {raw s t : List Char} (hcuts : Cuts html (.other raw :: ts) s)
    (ht : Text.Reflows raw t) (htrimmed : Text.Trimmed t)
    (hlays : Lays settings d ts out)
    (hnext : ∀ s', Cuts html ts s' → Again html settings d ['\n'] ts out) :
    ∃ raw' ts', Cuts html (.other raw' :: ts') (t ++ '\n' :: out) ∧ Text.trim raw' = t ∧
      Lays settings d ts' out := by
  cases hcuts with
  | comment hcomment h =>
    obtain ⟨ts', hcuts', hlays', -⟩ := (hnext _ h).lineBreak
    exact ⟨t, ts', .comment (hcomment.respaced (ht.respaced hcomment.trimmed)) hcuts',
      Text.trim_eq_self htrimmed, hlays'⟩
  | declaration htag hstart h =>
    obtain ⟨ts', hcuts', hlays', -⟩ := (hnext _ h).lineBreak
    have hrespaced := ht.respaced htag.trimmed
    exact ⟨t, ts', .declaration (htag.respaced hrespaced) (hstart.respaced hrespaced) hcuts',
      Text.trim_eq_self htrimmed, hlays'⟩
  | openComment hstart hopen =>
    have hbreak : Text.allBlank ['\n'] = true := by decide
    obtain ⟨hstart', hopen'⟩ := openComment_again hstart hopen ht hbreak
    cases hlays with
    | nil =>
      refine ⟨t ++ ['\n'], [], .openComment hstart' hopen', ?_, .nil⟩
      rw [Text.trim_append_blank hbreak, Text.trim_eq_self htrimmed]

/-! ## The content of raw elements -/

/-- Lines laid out one by one are laid out as one text with line breaks. -/
theorem rows_eq (settings : Settings) (d : ℕ) {ls : List (List Char)} (hne : ls ≠ []) :
    ls.flatMap (row settings d) =
      row settings d (Text.joinWith ('\n' :: margin settings d) ls) := by
  induction ls with
  | nil => exact absurd rfl hne
  | cons l ls ih =>
    cases ls with
    | nil =>
      rw [List.flatMap_singleton]
      rfl
    | cons l' ls =>
      rw [List.flatMap_cons, ih (List.cons_ne_nil _ _), Text.joinWith_cons_cons]
      unfold row
      simp

/-- The content of a raw element when it has been laid out, with the indentation of the end tag. -/
def relaid (settings : Settings) (d e : ℕ) (content : List Char) : List Char :=
  '\n' :: ((inner content).flatMap (row settings d) ++ margin settings e)

/-- It has the same lines. -/
theorem inner_relaid (settings : Settings) (d e : ℕ) (content : List Char) :
    inner (relaid settings d e content) = inner content :=
  (inner_line List.not_mem_nil _).trans (inner_rows settings d e (separated_inner content).2)

/-- Nothing looks like an end tag in it that did not before. -/
theorem Lacks.relaid {name content : List Char} (hname : isRawElement name = true)
    (h : Lacks name content) (settings : Settings) (d e : ℕ) :
    Lacks name (relaid settings d e content) := by
  refine (lacks_blank_append_iff (g := ['\n']) hname (by decide)).mpr ?_
  refine (lacks_rows_iff hname settings d _).mpr ⟨fun l hl => ?_, ?_⟩
  · exact h.of_isInfix ((separated_inner content).1.isInfix l hl)
  · rw [← List.append_nil (margin settings e),
      lacks_blank_append_iff hname (allBlank_margin settings e)]
    exact fun h => absurd (List.infix_nil.mp h) (List.cons_ne_nil _ _)

/-- Where the next token starts with the mark of an end tag, so does what it is laid out as. -/
theorem Lays.endMark_starts {name s : List Char} (hname : isRawElement name = true)
    (h : Lays settings d ts out) (hcuts : Cuts html ts s)
    (hs : endMark name <+: s.map Text.lowerAscii) :
    ∃ e y, out = margin settings e ++ '<' :: y ∧
      endMark name <+: ('<' :: y).map Text.lowerAscii := by
  obtain ⟨tail, rfl⟩ := exists_of_endMark hs
  rcases hcuts.slash with ⟨raw, rest, ts', rfl, hraw, rfl⟩ | rfl
  · cases h with
    | @closeTag _ _ _ out _ h =>
      refine ⟨d - 1, '/' :: raw ++ '\n' :: out, ?_, ?_⟩
      · rw [Text.trim_eq_self hraw.trimmed]
        unfold row
        simp
      · -- The mark ends in front of the closing bracket.
        have hend : '>' ∉ endMark name := by
          unfold endMark
          simpa using (isRawElement_plain hname).2.2
        obtain ⟨init, hinit⟩ := List.getLast?_eq_some_iff.mp hraw.getLast?
        rw [← List.cons_append, ← List.cons_append, hinit, List.append_assoc,
          List.singleton_append, List.map_append, List.map_cons] at hs
        have hfront := Text.isPrefix_of_append_cons hend hs
        rw [← List.cons_append, hinit, List.append_assoc, List.map_append]
        exact hfront.trans (List.prefix_append _ _)
  · cases h with
    | text _ h =>
      cases h with
      | nil =>
        obtain ⟨m, k, t, hsplit, hk, ht, hmt⟩ :=
          (reflows_collapse ('<' :: '/' :: tail)).of_cons (by decide)
        refine ⟨d, t ++ ['\n'], ?_, ?_⟩
        · rw [ht]
          exact List.append_nil _
        · rw [hsplit, ← List.cons_append, List.map_append] at hs
          have hfront := Text.isPrefix_of_append_blank (unbroken_endMark hname)
            (Text.allBlank_map_lowerAscii hk) hs
          have hfront := (Text.Respaced.cons '<' hmt).map_lowerAscii.isPrefix
            (unbroken_endMark hname) hfront
          rw [← List.cons_append, List.map_append]
          exact hfront.trans (List.prefix_append _ _)

/-! ## One rule at a time -/

section rules

variable {name raw s p : List Char} {selfClosing : Bool}

/-- A text goes on behind white space, and ends in front of the next tag. -/
theorem again_text {t : List Char} (hcuts : Cuts html (.text t :: ts) s) (hplain : '<' ∉ p)
    (hp : Text.allBlank p = true ∨ ∀ c ∈ s.head?, c = '<') (hlays : Lays settings d ts out)
    (hnext : ∀ {s'}, Cuts html ts s' → ∀ {p'}, '<' ∉ p' →
      (Text.allBlank p' = true ∨ ∀ c ∈ s'.head?, c = '<') → Again html settings d p' ts out) :
    Again html settings d p (.text t :: ts) (written settings d (collapse t) ++ out) := by
  cases hcuts with
  | @text _ s _ hne ht hs hcuts =>
    have hblank : Text.allBlank p = true := by
      rcases hp with hp | hp
      · exact hp
      · obtain ⟨c, t, rfl⟩ := List.exists_cons_of_ne_nil hne
        obtain rfl := hp c rfl
        exact absurd List.mem_cons_self ht
    have hcollapse := collapse_written settings d hblank t
    have hplain' := bracket_not_mem_written settings d hplain ht
    obtain ⟨ts', hcuts', hlays', hfollows⟩ := hnext hcuts hplain' (.inr hs)
    rw [List.append_assoc] at hcuts'
    rw [hcollapse] at hlays'
    refine ⟨ts', hcuts', ?_, ?_⟩
    · rw [written_of_blank settings d hblank]
      exact hlays'
    · intro hp
      obtain ⟨w, rest, rfl, hrest⟩ := hfollows (by simp [hp])
      refine ⟨w, rest, rfl, fun name raw more hmore => .inr ?_⟩
      rcases hrest name raw more hmore with ⟨hw, more', rfl⟩ | ⟨t', more', rfl, ht', -⟩
      · exact ⟨t, more', rfl, ht, hw.trans hcollapse⟩
      · -- Two texts are not cut apart.
        cases hcuts with
        | text hne' =>
          obtain ⟨c, t', rfl⟩ := List.exists_cons_of_ne_nil hne'
          obtain rfl := hs c rfl
          exact absurd List.mem_cons_self ht'
  | @openText t hcomment hopen =>
    cases hlays with
    | nil =>
      have hbreak : Text.allBlank ['\n'] = true := by decide
      obtain ⟨t', ht', hcomment', hopen'⟩ := openText_again hcomment hopen hbreak
      have hcollapse : collapse ('<' :: t' ++ ['\n']) = '<' :: t' := by
        rw [← ht', ← List.nil_append (_ ++ _), collapse_around rfl hbreak, collapse_collapse]
      have hagain := (@Lays.nil settings d).text ('<' :: t' ++ ['\n'])
      rw [hcollapse] at hagain
      rw [ht']
      exact again_row hplain ⟨t', rfl⟩ (.openText hcomment' hopen') hagain nofun

/-- A comment or declaration stays. -/
theorem again_other (hcuts : Cuts html (.other raw :: ts) s) (hplain : '<' ∉ p)
    (hlays : Lays settings d ts out)
    (hnext : ∀ s', Cuts html ts s' → Again html settings d ['\n'] ts out) :
    Again html settings d p (.other raw :: ts) (written settings d (Text.trim raw) ++ out) := by
  obtain ⟨raw', ts', hcuts', htrim, hlays'⟩ := other_again hcuts (Text.reflows_trim raw)
    (Text.trim_trimmed raw) hlays hnext
  obtain ⟨tail, rfl⟩ := hcuts.bracket_of_other
  obtain ⟨-, -, tail', -, -, htail, -⟩ := (Text.reflows_trim ('<' :: tail)).of_cons (by decide)
  have hagain := hlays'.other raw'
  rw [htrim] at hagain
  rw [htail] at hcuts' hagain ⊢
  exact again_row hplain ⟨tail', rfl⟩ hcuts' hagain nofun

/-- An end tag stays, and white space in front of it is no text. -/
theorem again_closeTag (hcuts : Cuts html (.closeTag name raw :: ts) s) (hplain : '<' ∉ p)
    (hnext : ∀ s', Cuts html ts s' → Again html settings (d - 1) ['\n'] ts out) :
    Again html settings d p (.closeTag name raw :: ts)
      (row settings (d - 1) (Text.trim raw) ++ out) := by
  obtain ⟨tail, s', rfl, rfl, rfl, hraw, hcuts⟩ := hcuts.of_closeTag
  obtain ⟨ts', hcuts', hlays', -⟩ := (hnext s' hcuts).lineBreak
  have hagain := hlays'.closeTag (tagName html tail) ('<' :: '/' :: tail)
  rw [Text.trim_eq_self hraw.trimmed] at hagain ⊢
  refine again_row hplain ⟨_, rfl⟩ (.closeTag hraw hcuts') hagain ?_
  intro name raw more hmore
  obtain ⟨rfl, rfl⟩ := Token.closeTag.inj (List.cons.inj hmore).1
  exact ⟨ts, rfl⟩

/-- A start tag that needs no end tag stays. -/
theorem again_selfClosing (hself : selfClosing = true)
    (hcuts : Cuts html (.openTag name raw selfClosing :: ts) s) (hplain : '<' ∉ p)
    (hnext : ∀ s', Cuts html ts s' → Again html settings d ['\n'] ts out) :
    Again html settings d p (.openTag name raw selfClosing :: ts)
      (row settings d (Text.trim raw) ++ out) := by
  cases hcuts with
  | @openTag raw s' _ hraw hstart _ hcuts =>
    obtain ⟨ts', hcuts', hlays', -⟩ := (hnext s' hcuts).lineBreak
    have hholds : ¬HoldsRaw html raw := by
      rintro ⟨-, hopen, -⟩
      rw [hself] at hopen
      exact Bool.noConfusion hopen
    have hagain := hlays'.selfClosing (tagName html raw) ('<' :: raw) hself
    rw [Text.trim_eq_self hraw.trimmed] at hagain ⊢
    exact again_row hplain ⟨raw, rfl⟩ (.openTag hraw hstart (fun h => absurd h hholds) hcuts')
      hagain nofun
  | rawElement => exact absurd hself Bool.false_ne_true

/-- An element on one line is one when its text has been collapsed. -/
theorem inline?_withText {t raw' : List Char} {rest : List Token}
    (h : collapse t = [] ∨ isRawElement name = false ∧
      Text.byteLength (raw ++ collapse t ++ raw') + d * settings.indentColumns ≤
        settings.lineWrap.limit) :
    inline? settings d name raw (withText (collapse t) (.closeTag name raw' :: rest)) =
      some (raw ++ collapse t ++ raw', rest) := by
  unfold withText
  split_ifs with hempty
  · rw [List.isEmpty_iff.mp hempty, List.append_nil]
    exact inline?_eq_some_iff.mpr (.inl ⟨raw', rfl, rfl⟩)
  · have hne : collapse t ≠ [] := by simpa using hempty
    obtain ⟨hname, hfits⟩ := h.resolve_left hne
    exact inline?_eq_some_iff.mpr
      (.inr ⟨collapse t, raw', rfl, hname, by rw [collapse_collapse], hfits⟩)

/-- An element on one line stays there. -/
theorem again_inline {line : List Char} {rest : List Token} (hself : selfClosing = false)
    (hline : inline? settings d name raw ts = some (line, rest))
    (hcuts : Cuts html (.openTag name raw selfClosing :: ts) s) (hplain : '<' ∉ p)
    (hnext : ∀ s', Cuts html rest s' → Again html settings d ['\n'] rest out) :
    Again html settings d p (.openTag name raw selfClosing :: ts)
      (row settings d line ++ out) := by
  cases hcuts with
  | rawElement => exact absurd hline nofun
  | @openTag raw s' _ hraw hstart hopen hcuts =>
    -- There is a text, which may be empty, and an end tag behind it.
    obtain ⟨t, raw', s'', rfl, ht, hshort, hholds, hcuts⟩ : ∃ t raw' s'',
        line = '<' :: raw ++ collapse t ++ raw' ∧ '<' ∉ t ∧
        (collapse t = [] ∨ isRawElement (tagName html raw) = false ∧
          Text.byteLength ('<' :: raw ++ collapse t ++ raw') + d * settings.indentColumns ≤
            settings.lineWrap.limit) ∧ ¬HoldsRaw html raw ∧
        Cuts html (.closeTag (tagName html raw) raw' :: rest) s'' := by
      rcases inline?_eq_some_iff.mp hline with
        ⟨raw', rfl, rfl⟩ | ⟨t, raw', rfl, hname, rfl, hfits⟩
      · refine ⟨[], raw', s', ?_, List.not_mem_nil, .inl rfl, ?_, hcuts⟩
        · rw [show collapse [] = [] from rfl, List.append_nil]
        -- The end tag would end the content of a raw element.
        intro hholds
        refine hopen hholds ?_
        obtain ⟨tail, s'', rfl, hname, rfl, -, -⟩ := hcuts.of_closeTag
        obtain rfl := hholds.1
        rw [hname, List.map_append]
        exact ((endMark_isPrefix tail).trans (List.prefix_append _ _)).isInfix
      · cases hcuts with
        | text _ ht _ hcuts =>
          refine ⟨t, raw', _, rfl, ht, .inr ⟨hname, hfits⟩, ?_, hcuts⟩
          rintro ⟨-, -, hraw⟩
          rw [hname] at hraw
          exact Bool.noConfusion hraw
    obtain ⟨tail, s'', rfl, hname, rfl, hraw', hcuts⟩ := hcuts.of_closeTag
    obtain ⟨ts', hcuts', hlays', -⟩ := (hnext s'' hcuts).lineBreak
    have hclose := Cuts.closeTag hraw' hcuts'
    rw [← hname] at hclose
    have hcollapse : '<' ∉ collapse t := fun h => ht ((mem_collapse_iff (by decide)).mp h)
    have hbody := hclose.behind hcollapse (by simp)
    have hagain := Cuts.openTag hraw hstart (fun h => absurd h hholds) hbody
    refine again_row hplain ⟨_, rfl⟩ ?_ (.inline hself (inline?_withText hshort) hlays') nofun
    rw [List.append_assoc, List.append_assoc]
    exact hagain

/-- An element that is not on one line is not put on one. -/
theorem again_opened (hself : selfClosing = false)
    (hline : inline? settings d name raw ts = none)
    (hother : ∀ content rest, ts = .other content :: rest → isRawElement name = false)
    (hcuts : Cuts html (.openTag name raw selfClosing :: ts) s) (hplain : '<' ∉ p)
    (hlays : Lays settings (d + 1) ts out)
    (hnext : ∀ s', Cuts html ts s' → Again html settings (d + 1) ['\n'] ts out) :
    Again html settings d p (.openTag name raw selfClosing :: ts)
      (row settings d (Text.trim raw) ++ out) := by
  cases hcuts with
  | @openTag raw s' _ hraw hstart hopen hcuts =>
    obtain ⟨ts', hcuts', hlays', hfollows⟩ := (hnext s' hcuts).lineBreak
    obtain ⟨w, rest, rfl, hrest⟩ := hfollows (List.cons_ne_nil _ _)
    -- What would be on one line now would have been before.
    have hline' : inline? settings d (tagName html raw) ('<' :: raw) (.text w :: rest) = none := by
      rw [Option.eq_none_iff_forall_ne_some]
      rintro ⟨line, rest'⟩ hsome
      rcases inline?_eq_some_iff.mp hsome with ⟨raw', h, -⟩ | ⟨t, raw', h, hname, rfl, hfits⟩
      · exact absurd (List.cons.inj h).1 nofun
      · obtain ⟨htext, rfl⟩ := List.cons.inj h
        obtain rfl := Token.text.inj htext
        rcases hrest _ _ _ rfl with ⟨-, more', rfl⟩ | ⟨t, more', rfl, -, hcollapse⟩
        · rw [inline?_eq_some_iff.mpr (.inl ⟨raw', rfl, rfl⟩)] at hline
          exact absurd hline nofun
        · rw [hcollapse] at hfits
          rw [inline?_eq_some_iff.mpr (.inr ⟨t, raw', rfl, hname, rfl, hfits⟩)] at hline
          exact absurd hline nofun
    have hlacks : HoldsRaw html raw →
        ¬endMark (tagName html raw) <:+: ('\n' :: out).map Text.lowerAscii := by
      intro hholds
      have hout := hlays.lacks hholds.2.2 hcuts (hopen hholds)
      exact (lacks_blank_append_iff (g := ['\n']) hholds.2.2 (by decide)).mpr hout
    have hagain := hlays'.opened hself hline' nofun
    rw [Text.trim_eq_self hraw.trimmed] at hagain ⊢
    exact again_row hplain ⟨raw, rfl⟩ (.openTag hraw hstart hlacks hcuts') hagain nofun
  | rawElement _ _ hholds =>
    have hname := hother _ _ rfl
    rw [hholds.2.2] at hname
    exact Bool.noConfusion hname

/-- The content of a raw element has the same lines when they have been laid out. Its end is found
in front of the same end tag, which has been indented. -/
theorem again_rawContent {content : List Char} (hverbatim : isVerbatim (tagName html raw) = false)
    (hraw : IsTag ('<' :: raw)) (hstart : StartsElement raw) (hholds : HoldsRaw html raw)
    (hend : First (endMark (tagName html raw)) (content.map Text.lowerAscii)
      (s.map Text.lowerAscii)) (hcuts : Cuts html ts s) (hplain : '<' ∉ p)
    (hlays : Lays settings (d + 1) ts out)
    (hnext : Again html settings (d + 1) ['\n'] ts out) :
    Again html settings d p
      (.openTag (tagName html raw) ('<' :: raw) false :: .other content :: ts)
      (row settings d ('<' :: raw) ++
        ((inner content).flatMap (row settings (d + 1)) ++ out)) := by
  have hname := hholds.2.2
  obtain ⟨e, y, rfl, hy⟩ := hlays.endMark_starts hname hcuts hend.here
  obtain ⟨ts', hcuts', hlays', -⟩ := hnext.lineBreak
  -- The text in front of the end tag is a part of the content now.
  have hgap : Text.allBlank ('\n' :: margin settings e) = true := allBlank_margin settings e
  have hgapPlain := bracket_not_mem_gap settings e
  obtain ⟨ts'', hy'⟩ := exists_cuts html ('<' :: y)
  obtain rfl : ts' = .text ('\n' :: margin settings e) :: ts'' :=
    hcuts'.unique (.text (List.cons_ne_nil _ _) hgapPlain (by simp) hy')
  have hrest : Lays settings (d + 1) ts'' (margin settings e ++ '<' :: y) := by
    generalize hout : margin settings e ++ '<' :: y = out' at hlays'
    cases hlays' with
    | text _ h => rwa [written_of_blank settings (d + 1) hgap]
  have hfirst : First (endMark (tagName html raw))
      ((relaid settings (d + 1) e content).map Text.lowerAscii)
      (('<' :: y).map Text.lowerAscii) := by
    have hcontent : Lacks (tagName html raw) content := hend.not_isInfix (List.cons_ne_nil _ _)
    refine ⟨hy, fun x₁ x₂ hx hne hstarts => hcontent.relaid hname settings (d + 1) e ?_⟩
    have hshort := endMark_isPrefix_of_append (isRawElement_plain hname).2.1 hne hstarts
    rw [hx]
    exact hshort.isInfix.trans (List.suffix_append _ _).isInfix
  have hagain := Lays.rawElement (d := d) ('<' :: raw) (relaid settings (d + 1) e content) rfl hname
    hverbatim hrest
  rw [Text.trim_eq_self hraw.trimmed, inner_relaid] at hagain
  have hsplit : relaid settings (d + 1) e content ++ '<' :: y = '\n' ::
      ((inner content).flatMap (row settings (d + 1)) ++ (margin settings e ++ '<' :: y)) := by
    unfold relaid
    simp
  have hcut := Cuts.rawElement hraw hstart hholds hfirst hy'
  rw [hsplit] at hcut
  exact again_row hplain ⟨raw, rfl⟩ hcut hagain nofun

/-- A comment behind the start tag of a raw element whose content is not one piece is laid out like
content. It is still a comment then, and stays. -/
theorem again_rawOther {content : List Char} (hself : selfClosing = false)
    (hraw : IsTag ('<' :: raw)) (hstart : StartsElement raw)
    (hsame : selfClosing = selfCloses html raw)
    (hopen : HoldsRaw html raw → ¬endMark (tagName html raw) <:+: s.map Text.lowerAscii)
    (hcuts : Cuts html (.other content :: ts) s) (hplain : '<' ∉ p)
    (hlays : Lays settings (d + 1) ts out)
    (hnext : ∀ s', Cuts html ts s' → Again html settings (d + 1) ['\n'] ts out) :
    Again html settings d p
      (.openTag (tagName html raw) ('<' :: raw) selfClosing :: .other content :: ts)
      (row settings d ('<' :: raw) ++
        ((inner content).flatMap (row settings (d + 1)) ++ out)) := by
  obtain ⟨hseparated, hinner⟩ := separated_inner content
  have hsolid : ∀ l ∈ inner content, Text.Solid l := fun l hl => (hinner l hl).1
  obtain ⟨tail, rfl⟩ := hcuts.bracket_of_other
  have hne : inner ('<' :: tail) ≠ [] := by
    intro hnil
    rw [hnil] at hseparated
    cases hseparated with
    | nil hblank =>
      have hbracket := Text.allBlank_iff.mp hblank '<' List.mem_cons_self
      exact absurd hbracket (by decide)
  have hgap : Text.allBlank ('\n' :: margin settings (d + 1)) = true := allBlank_margin settings _
  have hgapPlain := bracket_not_mem_gap settings (d + 1)
  rw [rows_eq settings (d + 1) hne]
  have hreflows := hseparated.reflows hsolid hgap (List.cons_ne_nil _ _)
  have htrimmed := (Text.solid_joinWith ('\n' :: margin settings (d + 1)) hsolid hne).trimmed
  generalize Text.joinWith ('\n' :: margin settings (d + 1)) (inner ('<' :: tail)) = line
    at hreflows htrimmed
  obtain ⟨content', ts', hcuts', htrim, hlays'⟩ := other_again hcuts hreflows htrimmed hlays hnext
  obtain ⟨-, -, tail', -, -, rfl, -⟩ := hreflows.of_cons (by decide)
  have hlacks : HoldsRaw html raw → Lacks (tagName html raw)
      ('\n' :: margin settings (d + 1) ++ ('<' :: tail' ++ '\n' :: out)) := by
    intro hholds
    have hs := hopen hholds
    have hname := hholds.2.2
    have hout : Lacks (tagName html raw) out :=
      ((hlays.other ('<' :: tail)).lacks hname hcuts hs).of_isInfix (List.suffix_append _ _).isInfix
    have hline := (Lacks.of_isInfix hs (hcuts.raw_isInfix List.mem_cons_self)).reflows hname hreflows
    have hrow := (lacks_row_iff hname settings (d + 1)).mpr ⟨hline, hout⟩
    have hrow := (lacks_blank_append_iff (g := ['\n']) hname (by decide)).mpr hrow
    unfold row at hrow
    simpa using hrow
  have hcut := Cuts.openTag hraw hstart hlacks
    (.text (List.cons_ne_nil _ _) hgapPlain (by simp) hcuts')
  have hagain : Lays settings d (.openTag (tagName html raw) ('<' :: raw) selfClosing ::
      .text ('\n' :: margin settings (d + 1)) :: .other content' :: ts') _ :=
    .opened hself rfl nofun ((hlays'.other content').text ('\n' :: margin settings (d + 1)))
  rw [Text.trim_eq_self hraw.trimmed, htrim, written_of_blank settings (d + 1) hgap] at hagain
  subst hsame
  refine again_row hplain ⟨raw, rfl⟩ ?_ hagain nofun
  have hsplit : '\n' :: (row settings (d + 1) ('<' :: tail') ++ out) =
      '\n' :: margin settings (d + 1) ++ ('<' :: tail' ++ '\n' :: out) := by
    unfold row
    simp
  rw [hsplit]
  exact hcut

end rules

/-! ## All tokens -/

/-- The output is laid out as it is, behind any text without tags. That text may go on with the
first of the tokens only if it is white space. -/
theorem Lays.again (h : Lays settings d ts out) {s : List Char} (hcuts : Cuts html ts s)
    {p : List Char} (hplain : '<' ∉ p)
    (hp : Text.allBlank p = true ∨ ∀ c ∈ s.head?, c = '<') : Again html settings d p ts out := by
  -- Behind a row there is a line break.
  have hbreak : ∀ {e ts out}, (∀ {s}, Cuts html ts s → ∀ {p}, '<' ∉ p →
      (Text.allBlank p = true ∨ ∀ c ∈ s.head?, c = '<') → Again html settings e p ts out) →
      ∀ s, Cuts html ts s → Again html settings e ['\n'] ts out :=
    fun ih s hcuts => ih hcuts (by decide) (.inl (by decide))
  induction h generalizing s p with
  | nil =>
    cases hcuts with
    | nil =>
      refine ⟨withText p [], Cuts.nil.behind hplain (by simp), Lays.nil.behind p, ?_⟩
      intro hp
      refine ⟨p, [], ?_, nofun⟩
      unfold withText
      rw [if_neg (by simpa using hp)]
  | text t h ih => exact again_text hcuts hplain hp h ih
  | other raw h ih => exact again_other hcuts hplain h (hbreak ih)
  | closeTag name raw h ih => exact again_closeTag hcuts hplain (hbreak ih)
  | inline hself hline h ih => exact again_inline hself hline hcuts hplain (hbreak ih)
  | selfClosing name raw hself h ih => exact again_selfClosing hself hcuts hplain (hbreak ih)
  | opened hself hline hother h ih =>
    exact again_opened hself hline hother hcuts hplain h (hbreak ih)
  | rawElement raw content hself hname hverbatim h ih =>
    cases hcuts with
    | openTag hraw hstart hopen hcuts =>
      rw [Text.trim_eq_self hraw.trimmed]
      exact again_rawOther hself hraw hstart rfl hopen hcuts hplain h (hbreak ih)
    | rawElement hraw hstart hholds hend hcuts =>
      rw [Text.trim_eq_self hraw.trimmed]
      exact again_rawContent hverbatim hraw hstart hholds hend hcuts hplain h (hbreak ih _ hcuts)

/-- Laying out markup again changes nothing, unless content is kept as it is. For every text without
a start tag of such an element, however malformed, and all settings, the beautifier leaves its own
output as it is. -/
theorem beautified_stable (settings : Settings) (html : Bool) {text : List Char}
    (h : ∀ t ∈ tokenize html text, t.startsVerbatim = false) :
    ∃ out, Backend.beautified ⟨String.ofList text, languageOf html, settings⟩ =
        .ok (String.ofList out) ∧
      Backend.beautified ⟨String.ofList out, languageOf html, settings⟩ =
        .ok (String.ofList out) := by
  -- A layout is what the rules say.
  have hrules : ∀ {s out}, Lays settings 0 (tokenize html s) out → beautify settings html s = out :=
    fun h => h.text_run (Nat.le_refl _) rfl rfl
  obtain ⟨out, hlays⟩ := exists_lays settings 0 h
  obtain ⟨ts, hcuts, hagain, -⟩ :=
    hlays.again (p := []) (tokenize_eq_iff.mp rfl) List.not_mem_nil (.inl rfl)
  obtain rfl := tokenize_eq_iff.mpr hcuts
  have hsame : beautify settings html out = out := hrules hagain
  refine ⟨out, ?_, ?_⟩
  · rw [beautified_eq, hrules hlays]
  · rw [beautified_eq, hsame]

/-- A case of this: an end tag without a start tag, a script over two lines and a comment that is
not closed. -/
theorem beautified_stable_page :
    let text := "</p><b>a  b</b><script>x\n  y</script><i>c<!-- d\n".toList
    (∀ t ∈ tokenize true text, t.startsVerbatim = false) ∧
      ∃ out, Backend.beautified ⟨String.ofList text, "html", Settings.resolve {} "html"⟩ =
          .ok (String.ofList out) ∧
        Backend.beautified ⟨String.ofList out, "html", Settings.resolve {} "html"⟩ =
          .ok (String.ofList out) := by
  intro text
  have h : ∀ t ∈ tokenize true text, t.startsVerbatim = false := by decide +kernel
  exact ⟨h, beautified_stable (Settings.resolve {} "html") true h⟩

end CodeTidy.Markup
