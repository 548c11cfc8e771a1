import CodeTidy.Proofs.Markup.Cutting
import CodeTidy.Proofs.Markup.Laying

/-!
# What stays when markup is laid out

The layout puts other white space around and into the pieces of markup. A text is collapsed once and
for all, the content of a raw element has the same lines when its lines are laid out, and a comment
or a declaration is still one when its white space is other white space.
-/

namespace CodeTidy.Markup

variable {s t : List Char}

/-! ## Texts -/

/-- White space around a text is left out when the text is collapsed. -/
theorem collapse_around {g h : List Char} (hg : Text.allBlank g = true)
    (hh : Text.allBlank h = true) (s : List Char) : collapse (g ++ (s ++ h)) = collapse s := by
  obtain ⟨hseparated, hwords⟩ := Text.separated_words s
  unfold collapse
  rw [Text.words_blank_append hg, Text.words_of_separated (hseparated.append_blank hh) hwords]

/-- White space is all left out. -/
theorem collapse_of_blank (h : Text.allBlank s = true) : collapse s = [] := by
  unfold collapse
  rw [Text.words_of_blank h]
  rfl

/-- A collapsed text is left alone. -/
theorem collapse_collapse (s : List Char) : collapse (collapse s) = collapse s := by
  have hblank : Text.allBlank [' '] = true := by decide
  have hjoined := Text.separated_joinWith (h := []) hblank (List.cons_ne_nil _ _) rfl (Text.words s)
  rw [List.append_nil] at hjoined
  unfold collapse
  rw [Text.words_of_separated hjoined (Text.separated_words s).2]

/-- The characters of a text stay, white space aside. -/
theorem mem_collapse_iff {c : Char} (hc : Text.isBlank c = false) : c ∈ collapse s ↔ c ∈ s := by
  have hstrip : ∀ s : List Char, c ∈ Text.strip s ↔ c ∈ s := by
    intro s
    unfold Text.strip
    simp [hc]
  rw [← hstrip, strip_collapse, hstrip]

/-- A collapsed text is the text up to gaps. -/
theorem reflows_collapse (s : List Char) : Text.Reflows s (collapse s) := by
  obtain ⟨hseparated, hwords⟩ := Text.separated_words s
  exact hseparated.reflows (fun w hw => Text.solid_of_unbroken (hwords w hw).1 (hwords w hw).2)
    (by decide) (List.cons_ne_nil _ _)

/-! ## Lines -/

/-- A line goes up to its line feed. -/
theorem pieces_line {a : List Char} (ha : '\n' ∉ a) (b : List Char) :
    Text.pieces (a ++ '\n' :: b) = (a ++ ['\n']) :: Text.pieces b := by
  induction a with
  | nil => rfl
  | cons c a ih =>
    rw [List.mem_cons, not_or] at ha
    have hrest := ih ha.2
    unfold Text.pieces at hrest ⊢
    rw [List.cons_append, List.foldr_cons, hrest, if_neg (by simpa using Ne.symm ha.1)]
    rfl

/-- The last line may lack it. -/
theorem pieces_last {a : List Char} (ha : '\n' ∉ a) :
    Text.pieces a = if a.isEmpty then [] else [a] := by
  induction a with
  | nil => rfl
  | cons c a ih =>
    rw [List.mem_cons, not_or] at ha
    have hrest := ih ha.2
    unfold Text.pieces at hrest ⊢
    rw [List.foldr_cons, hrest, if_neg (by simpa using Ne.symm ha.1)]
    cases a <;> rfl

/-- The line feed of a line is white space, and trimmed with it. -/
theorem inner_eq (s : List Char) :
    inner s = ((Text.pieces s).map Text.trim).filter (!·.isEmpty) := by
  unfold inner Text.lines
  rw [List.map_map]
  congr 1
  refine List.map_congr_left fun l _ => ?_
  obtain ⟨g, hg, hl⟩ := Text.exists_chomp l
  conv_rhs => rw [hl, Text.trim_append_blank hg]
  rfl

/-- A line that is left out if it is empty when trimmed. -/
def trimmedLine (a : List Char) : List (List Char) := [Text.trim a].filter (!·.isEmpty)

/-- The lines of a content are one and the others. -/
theorem inner_line {a : List Char} (ha : '\n' ∉ a) (b : List Char) :
    inner (a ++ '\n' :: b) = trimmedLine a ++ inner b := by
  have hbreak : Text.allBlank ['\n'] = true := by decide
  rw [inner_eq, inner_eq, pieces_line ha, List.map_cons, Text.trim_append_blank hbreak]
  exact List.filter_append [Text.trim a] _

/-- Without a line feed there is one line. -/
theorem inner_last {a : List Char} (ha : '\n' ∉ a) : inner a = trimmedLine a := by
  rw [inner_eq, pieces_last ha]
  cases a <;> rfl

/-- A text has a first line, and perhaps more. -/
theorem exists_line (s : List Char) :
    ∃ a, '\n' ∉ a ∧ (s = a ∨ ∃ b, s = a ++ '\n' :: b) := by
  induction s with
  | nil => exact ⟨[], by simp, .inl rfl⟩
  | cons c s ih =>
    by_cases hc : c = '\n'
    · exact ⟨[], by simp, .inr ⟨s, by rw [hc]; rfl⟩⟩
    · obtain ⟨a, ha, hs⟩ := ih
      refine ⟨c :: a, ?_, ?_⟩
      · rw [List.mem_cons, not_or]
        exact ⟨Ne.symm hc, ha⟩
      · rcases hs with rfl | ⟨b, rfl⟩
        · exact .inl rfl
        · exact .inr ⟨b, rfl⟩

/-- The lines of a content make it up, up to white space, and none has a line feed in it. -/
theorem separated_inner (s : List Char) :
    Text.Separated (inner s) s ∧ ∀ l ∈ inner s, Text.Solid l ∧ '\n' ∉ l := by
  -- One line, with what is behind it.
  have hline : ∀ {a} (zs b), '\n' ∉ a → (∀ c ∈ b.head?, Text.isBlank c = true) →
      Text.Separated zs b → (∀ l ∈ zs, Text.Solid l ∧ '\n' ∉ l) →
      Text.Separated (trimmedLine a ++ zs) (a ++ b) ∧
        ∀ l ∈ trimmedLine a ++ zs, Text.Solid l ∧ '\n' ∉ l := by
    intro a zs b ha hb hzs hsolid
    unfold trimmedLine
    obtain ⟨g, h, hg, hh, hsplit⟩ := Text.exists_trim a
    by_cases hempty : Text.trim a = []
    · rw [hempty] at hsplit ⊢
      rw [List.append_nil] at hsplit
      rw [hsplit]
      exact ⟨hzs.blank_append (Text.allBlank_append hg hh), hsolid⟩
    · rw [List.filter_cons_of_pos (by simpa using hempty), List.filter_nil, List.singleton_append]
      constructor
      · conv_rhs => rw [hsplit]
        rw [List.append_assoc, List.append_assoc]
        refine .cons hg ?_ (hzs.blank_append hh)
        intro c hc
        cases h with
        | nil => exact hb c hc
        | cons d h =>
          obtain rfl := Option.some.inj hc
          exact Text.allBlank_iff.mp hh d List.mem_cons_self
      · refine List.forall_mem_cons.mpr ⟨⟨⟨hempty, Text.trim_trimmed a⟩, ?_⟩, hsolid⟩
        intro hmem
        refine ha ?_
        rw [hsplit]
        exact List.mem_append_left _ (List.mem_append_right _ hmem)
  induction hn : s.length using Nat.strong_induction_on generalizing s with
  | _ n ih =>
    obtain ⟨a, ha, rfl | ⟨b, rfl⟩⟩ := exists_line s
    · have hone := hline [] [] ha (by simp) (.nil rfl) (by simp)
      rw [List.append_nil, List.append_nil] at hone
      rw [inner_last ha]
      exact hone
    · have hlength : b.length < n := by
        rw [List.length_append, List.length_cons] at hn
        omega
      obtain ⟨hb, hsolid⟩ := ih b.length hlength b rfl
      rw [inner_line ha]
      refine hline _ _ ha ?_ (hb.blank_append (g := ['\n']) (by decide)) hsolid
      intro c hc
      obtain rfl := Option.some.inj hc
      rfl

/-- Lines that are laid out are the lines of what they are laid out as. -/
theorem inner_rows (settings : Settings) (d e : ℕ) {ls : List (List Char)}
    (h : ∀ l ∈ ls, Text.Solid l ∧ '\n' ∉ l) :
    inner (ls.flatMap (row settings d) ++ margin settings e) = ls := by
  have hmargin : ∀ d, '\n' ∉ margin settings d := by
    intro d hmem
    obtain ⟨u, hu, hc⟩ := List.mem_flatten.mp hmem
    rw [List.eq_of_mem_replicate hu] at hc
    exact settings.lineBreak_not_mem_indentUnit hc
  induction ls with
  | nil =>
    rw [List.flatMap_nil, List.nil_append, inner_last (hmargin e)]
    unfold trimmedLine
    rw [Text.trim_eq_nil_iff.mpr (allBlank_margin settings e)]
    rfl
  | cons l ls ih =>
    obtain ⟨hl, hls⟩ := List.forall_mem_cons.mp h
    have hline : '\n' ∉ margin settings d ++ l := by
      rw [List.mem_append, not_or]
      exact ⟨hmargin d, hl.2⟩
    rw [List.flatMap_cons]
    unfold row
    rw [← List.append_assoc (margin settings d), List.append_assoc, List.append_assoc,
      List.singleton_append, inner_line hline]
    unfold trimmedLine
    rw [Text.trim_blank_append (allBlank_margin settings d), Text.trim_eq_self hl.1.trimmed,
      List.filter_cons_of_pos (by simpa using hl.1.nonempty)]
    exact congrArg (l :: ·) (ih hls)

/-! ## Tags and comments -/

/-- White space changes nothing about where a tag ends. -/
theorem tagEnd?_blank_append {quote : Option Char} (hquote : ∀ c ∈ quote, Text.isBlank c = false)
    {g : List Char} (hg : Text.allBlank g = true) (n : ℕ) (s : List Char) :
    tagEnd? quote n (g ++ s) = tagEnd? quote (n + g.length) s := by
  induction g generalizing n with
  | nil => rfl
  | cons c g ih =>
    have hc : Text.isBlank c = true := Text.allBlank_iff.mp hg c List.mem_cons_self
    have hne : ∀ d, Text.isBlank d = false → (c == d) = false := by
      intro d hd
      rw [beq_eq_false_iff_ne]
      rintro rfl
      rw [hc] at hd
      exact Bool.noConfusion hd
    have hrest := ih (Text.allBlank_of_cons hg) (n + 1)
    rw [List.length_cons, Nat.add_comm g.length 1, ← Nat.add_assoc, ← hrest, List.cons_append]
    conv_lhs => unfold tagEnd?
    cases quote with
    | none =>
      dsimp only
      rw [hne _ (by decide), hne _ (by decide), hne _ (by decide), Bool.or_self,
        if_neg Bool.false_ne_true, if_neg Bool.false_ne_true]
    | some q =>
      dsimp only
      rw [hne q (hquote q rfl), if_neg Bool.false_ne_true]

/-- A tag ends at the same character in both of two texts that differ in gaps, or in neither. -/
theorem tagEnd?_respaced (h : Text.Respaced s t) (quote : Option Char)
    (hquote : ∀ c ∈ quote, Text.isBlank c = false) (n m : ℕ) :
    (tagEnd? quote n s = none ∧ tagEnd? quote m t = none) ∨
      ∃ x y x' y', s = x ++ y ∧ t = x' ++ y' ∧ Text.Respaced y y' ∧
        tagEnd? quote n s = some (n + x.length) ∧ tagEnd? quote m t = some (m + x'.length) := by
  induction h generalizing quote n m with
  | nil => exact .inl ⟨rfl, rfl⟩
  | @cons c s t h ih =>
    -- The tag does not end with this character.
    have hgo : ∀ quote', (∀ d ∈ quote', Text.isBlank d = false) →
        tagEnd? quote n (c :: s) = tagEnd? quote' (n + 1) s →
        tagEnd? quote m (c :: t) = tagEnd? quote' (m + 1) t →
        (tagEnd? quote n (c :: s) = none ∧ tagEnd? quote m (c :: t) = none) ∨
          ∃ x y x' y', c :: s = x ++ y ∧ c :: t = x' ++ y' ∧ Text.Respaced y y' ∧
            tagEnd? quote n (c :: s) = some (n + x.length) ∧
            tagEnd? quote m (c :: t) = some (m + x'.length) := by
      intro quote' hquote' hs ht
      rw [hs, ht]
      refine (ih quote' hquote' (n + 1) (m + 1)).imp_right ?_
      rintro ⟨x, y, x', y', rfl, rfl, hy, hx, hx'⟩
      refine ⟨c :: x, y, c :: x', y', rfl, rfl, hy, ?_, ?_⟩
      · rw [hx, List.length_cons, Nat.add_comm x.length 1, Nat.add_assoc]
      · rw [hx', List.length_cons, Nat.add_comm x'.length 1, Nat.add_assoc]
    cases quote with
    | some q =>
      refine hgo (if c == q then none else some q) ?_ rfl rfl
      intro d hd
      split_ifs at hd
      · exact absurd hd nofun
      · exact hquote d hd
    | none =>
      by_cases hc : (c == '"' || c == '\'') = true
      · refine hgo (some c) ?_ ?_ ?_
        · intro d hd
          obtain rfl := Option.some.inj hd
          rw [Bool.or_eq_true, beq_iff_eq, beq_iff_eq] at hc
          rcases hc with rfl | rfl <;> rfl
        · conv_lhs => unfold tagEnd?
          exact if_pos hc
        · conv_lhs => unfold tagEnd?
          exact if_pos hc
      · by_cases hend : (c == '>') = true
        · refine .inr ⟨[c], s, [c], t, rfl, rfl, h, ?_, ?_⟩
          · unfold tagEnd?
            exact (if_neg hc).trans (if_pos hend)
          · unfold tagEnd?
            exact (if_neg hc).trans (if_pos hend)
        · refine hgo none (fun d hd => absurd hd nofun) ?_ ?_
          · conv_lhs => unfold tagEnd?
            exact (if_neg hc).trans (if_neg hend)
          · conv_lhs => unfold tagEnd?
            exact (if_neg hc).trans (if_neg hend)
  | @gap g g' s t hg hne hg' hne' _ ih =>
    rw [tagEnd?_blank_append hquote hg, tagEnd?_blank_append hquote hg']
    refine (ih quote hquote (n + g.length) (m + g'.length)).imp_right ?_
    rintro ⟨x, y, x', y', rfl, rfl, hy, hx, hx'⟩
    refine ⟨g ++ x, y, g' ++ x', y', (List.append_assoc _ _ _).symm,
      (List.append_assoc _ _ _).symm, hy, ?_, ?_⟩
    · rw [hx, List.length_append, Nat.add_assoc]
    · rw [hx', List.length_append, Nat.add_assoc]

/-- What is a tag is one with other white space. -/
theorem IsTag.respaced (h : IsTag s) (hst : Text.Respaced s t) : IsTag t := by
  obtain ⟨s, rfl, hend⟩ := h
  obtain ⟨t, rfl, hrest⟩ := hst.of_cons (by decide)
  refine ⟨t, rfl, ?_⟩
  rcases tagEnd?_respaced hrest none (fun c hc => absurd hc nofun) 1 1 with
    ⟨hnone, -⟩ | ⟨x, y, x', y', rfl, rfl, hy, hx, hx'⟩
  · rw [hnone] at hend
    exact absurd hend nofun
  · rw [hx] at hend
    have hlength := Option.some.inj hend
    rw [List.length_cons, List.length_append] at hlength
    obtain rfl : y = [] := List.length_eq_zero_iff.mp (by omega)
    rw [hy.eq_nil] at hx' ⊢
    rw [hx', List.length_cons, List.append_nil, Nat.add_comm]

/-- What starts a comment, or ends one, has no white space in it. -/
theorem unbroken_marks : Text.Unbroken "<!--".toList ∧ Text.Unbroken "-->".toList ∧
    Text.Unbroken "<!".toList ∧ Text.Unbroken "<?".toList := by
  simp only [Text.unbroken_iff]
  decide

/-- The same for what starts like a declaration. -/
theorem StartsDeclaration.respaced (h : StartsDeclaration s) (hst : Text.Respaced s t) :
    StartsDeclaration t := by
  obtain ⟨hcomment, -, hdeclaration, hinstruction⟩ := unbroken_marks
  exact ⟨fun ht => h.1 (hst.symm.isPrefix hcomment ht),
    h.2.imp (hst.isPrefix hdeclaration) (hst.isPrefix hinstruction)⟩

/-- At the end of a text, what ends with `c` stands first if it does not stand in what is in front
of `c`. -/
theorem first_self_iff {n x : List Char} {c : Char} :
    First (n ++ [c]) x (n ++ [c]) ↔ ¬n ++ [c] <:+: x ++ n := by
  constructor
  · rintro hfirst ⟨u, v, huv⟩
    -- It would start in front of the end of `x`.
    have hlength := congrArg List.length huv
    simp only [List.length_append, List.length_singleton] at hlength
    rw [List.append_assoc] at huv
    rcases List.append_eq_append_iff.mp huv with ⟨x₂, rfl, hrest⟩ | ⟨x₂, rfl, -⟩
    · refine hfirst.earliest u x₂ rfl ?_ ?_
      · rintro rfl
        rw [List.append_nil] at hlength
        omega
      · rw [← List.append_assoc, ← hrest, List.append_assoc]
        exact List.prefix_append _ _
    · rw [List.length_append] at hlength
      omega
  · intro hnot
    refine ⟨List.prefix_rfl, ?_⟩
    rintro x₁ x₂ rfl hne hstarts
    have hpos := List.length_pos_of_ne_nil hne
    rw [← List.append_assoc x₂] at hstarts
    have hshort : n ++ [c] <+: x₂ ++ n := by
      refine List.prefix_of_prefix_length_le hstarts (List.prefix_append _ _) ?_
      rw [List.length_append, List.length_append, List.length_singleton]
      omega
    rw [List.append_assoc] at hnot
    exact hnot (hshort.isInfix.trans (List.suffix_append _ _).isInfix)

/-- What is a comment is one with other white space. -/
theorem IsComment.respaced (h : IsComment s) (hst : Text.Respaced s t) : IsComment t := by
  obtain ⟨hcomment, hend, -⟩ := unbroken_marks
  obtain ⟨hstarts, x, rfl, hfirst⟩ := h
  refine ⟨hst.isPrefix hcomment hstarts, ?_⟩
  rw [show "-->".toList = ['-', '-'] ++ ['>'] from rfl] at hst hfirst hend ⊢
  rw [← List.append_assoc] at hst
  -- Three characters are taken off the end.
  obtain ⟨t₁, rfl, hst₁⟩ := hst.concat (by decide)
  have hnot : ¬['-', '-'] ++ ['>'] <:+: t₁ := fun h =>
    first_self_iff.mp hfirst (hst₁.symm.isInfix hend h)
  rw [show x ++ ['-', '-'] = x ++ ['-'] ++ ['-'] by simp] at hst₁
  obtain ⟨t₂, rfl, hst₂⟩ := hst₁.concat (by decide)
  obtain ⟨t₃, rfl, -⟩ := hst₂.concat (by decide)
  refine ⟨t₃, by simp, first_self_iff.mpr ?_⟩
  rwa [List.append_assoc] at hnot

/-- Whether a tag is open does not depend on white space at the end. -/
theorem tagEnd?_append_blank_eq_none_iff {k : List Char} (hk : Text.allBlank k = true) :
    tagEnd? none 1 (s ++ k) = none ↔ tagEnd? none 1 s = none := by
  constructor
  · intro h
    by_contra hsome
    obtain ⟨m, hm⟩ := Option.ne_none_iff_exists'.mp hsome
    obtain ⟨raw, rest, rfl, -, hraw⟩ := exists_isTag hm
    rw [List.append_assoc, tagEnd?_of_isTag hraw] at h
    exact absurd h nofun
  · intro h
    by_contra hsome
    obtain ⟨m, hm⟩ := Option.ne_none_iff_exists'.mp hsome
    obtain ⟨raw, rest, hsplit, -, hraw⟩ := exists_isTag hm
    rcases List.append_eq_append_iff.mp hsplit with ⟨more, rfl, rfl⟩ | ⟨more, rfl, -⟩
    · rcases List.eq_nil_or_concat more with rfl | ⟨more, c, rfl⟩
      · rw [List.append_nil] at hraw
        have hend := tagEnd?_of_isTag hraw []
        rw [List.append_nil, h] at hend
        exact absurd hend nofun
      · -- The tag would end with white space.
        have hlast := hraw.getLast?
        rw [← List.cons_append, List.concat_eq_append, ← List.append_assoc,
          List.getLast?_concat] at hlast
        have hblank := Text.allBlank_iff.mp hk c (by simp)
        rw [Option.some.inj hlast] at hblank
        exact absurd hblank (by decide)
    · rw [tagEnd?_of_isTag hraw] at h
      exact absurd h nofun

/-- What looks like a tag but is not closed does so when it is collapsed. -/
theorem openText_again (hcomment : ¬"<!--".toList <+: '<' :: s) (hopen : tagEnd? none 1 s = none)
    {k : List Char} (hk : Text.allBlank k = true) :
    ∃ t, collapse ('<' :: s) = '<' :: t ∧ ¬"<!--".toList <+: '<' :: (t ++ k) ∧
      tagEnd? none 1 (t ++ k) = none := by
  obtain ⟨m, k', t, rfl, hk', ht, hmt⟩ := (reflows_collapse ('<' :: s)).of_cons (by decide)
  refine ⟨t, ht, ?_, ?_⟩
  · intro hstarts
    rw [← List.cons_append] at hstarts
    have hfront := Text.isPrefix_of_append_blank unbroken_marks.1 hk hstarts
    have hfront := (Text.Respaced.cons '<' hmt).symm.isPrefix unbroken_marks.1 hfront
    exact hcomment (hfront.trans ⟨k', rfl⟩)
  · rw [tagEnd?_append_blank_eq_none_iff hk'] at hopen
    rw [tagEnd?_append_blank_eq_none_iff hk]
    rcases tagEnd?_respaced hmt none (fun c hc => absurd hc nofun) 1 1 with
      ⟨-, hnone⟩ | ⟨x, y, x', y', rfl, rfl, -, hx, -⟩
    · exact hnone
    · rw [hx] at hopen
      exact absurd hopen nofun

/-- A comment that is not closed is still not closed. -/
theorem openComment_again (hcomment : "<!--".toList <+: s) (hopen : ¬"-->".toList <:+: s)
    (hst : Text.Reflows s t) {k : List Char} (hk : Text.allBlank k = true) :
    "<!--".toList <+: t ++ k ∧ ¬"-->".toList <:+: t ++ k := by
  obtain ⟨hstart, hend, -⟩ := unbroken_marks
  constructor
  · obtain ⟨tail, rfl⟩ := bracket_of_comment hcomment
    obtain ⟨m, k', t', rfl, hk', rfl, hmt⟩ := hst.of_cons (by decide)
    rw [← List.cons_append] at hcomment
    have hfront := Text.isPrefix_of_append_blank hstart hk' hcomment
    exact ((Text.Respaced.cons '<' hmt).isPrefix hstart hfront).trans (List.prefix_append _ _)
  · rw [Text.isInfix_append_blank_iff hend hk]
    exact fun h => hopen (hst.isInfix hend h)

/-! ## The mark of an end tag -/

section mark

variable {name g : List Char}

/-- Nothing in a text looks like an end tag of an element. -/
def Lacks (name s : List Char) : Prop := ¬endMark name <:+: s.map Text.lowerAscii

/-- There is no white space in the mark. -/
theorem unbroken_endMark (hname : isRawElement name = true) : Text.Unbroken (endMark name) := by
  intro c hc
  rcases List.mem_cons.mp hc with rfl | hc
  · rfl
  rcases List.mem_cons.mp hc with rfl | hc
  · rfl
  exact (isRawElement_plain hname).1 c hc

/-- A part of a text has nothing that the text has not. -/
theorem Lacks.of_isInfix (h : Lacks name s) (hts : t <:+: s) : Lacks name t := fun ht =>
  h (ht.trans (hts.map Text.lowerAscii))

/-- White space in front of a text makes no difference. -/
theorem lacks_blank_append_iff (hname : isRawElement name = true) (hg : Text.allBlank g = true) :
    Lacks name (g ++ s) ↔ Lacks name s := by
  unfold Lacks
  rw [List.map_append, Text.isInfix_blank_append_iff (unbroken_endMark hname)
    (Text.allBlank_map_lowerAscii hg)]

/-- Nor does other white space between its parts. -/
theorem Lacks.reflows (hname : isRawElement name = true) (h : Lacks name s)
    (hst : Text.Reflows s t) : Lacks name t := by
  obtain ⟨g, m, k, hg, hk, rfl, -, hmt⟩ := hst
  have hm : Lacks name m := h.of_isInfix ⟨g, k, rfl⟩
  exact fun ht => hm (hmt.map_lowerAscii.symm.isInfix (unbroken_endMark hname) ht)

/-- A line is looked through by itself. -/
theorem lacks_row_iff (hname : isRawElement name = true) (settings : Settings) (d : ℕ) :
    Lacks name (row settings d s ++ t) ↔ Lacks name s ∧ Lacks name t := by
  have hbreak : '\n' ∉ endMark name := by
    intro hmem
    have hblank := unbroken_endMark hname _ hmem
    exact absurd hblank (by decide)
  unfold row
  rw [List.append_assoc, lacks_blank_append_iff hname (allBlank_margin settings d),
    List.append_assoc, List.singleton_append]
  unfold Lacks
  rw [List.map_append, List.map_cons, show Text.lowerAscii '\n' = '\n' from rfl,
    Text.isInfix_append_cons_iff hbreak, not_or]

/-- And so are lines. -/
theorem lacks_rows_iff (hname : isRawElement name = true) (settings : Settings) (d : ℕ)
    (ls : List (List Char)) :
    Lacks name (ls.flatMap (row settings d) ++ t) ↔ (∀ l ∈ ls, Lacks name l) ∧ Lacks name t := by
  induction ls with
  | nil => simp
  | cons l ls ih =>
    rw [List.flatMap_cons, List.append_assoc, lacks_row_iff hname, ih, List.forall_mem_cons,
      and_assoc]

/-- A tag is looked through by itself. -/
theorem Lacks.tag_append (hname : isRawElement name = true) (hs : IsTag s) (h : Lacks name s)
    (ht : Lacks name t) : Lacks name (s ++ t) := by
  have hend : '>' ∉ endMark name := by
    have hplain := (isRawElement_plain hname).2.2
    unfold endMark
    simpa using hplain
  obtain ⟨init, rfl⟩ := List.getLast?_eq_some_iff.mp hs.getLast?
  unfold Lacks at h ht ⊢
  rw [List.append_assoc, List.singleton_append, List.map_append, List.map_cons,
    show Text.lowerAscii '>' = '>' from rfl, Text.isInfix_append_cons_iff hend, not_or]
  refine ⟨fun hinit => h ?_, ht⟩
  rw [List.map_append]
  exact hinit.trans (List.prefix_append _ _).isInfix

/-- So is what an opening bracket starts. -/
theorem Lacks.append_bracket (hname : isRawElement name = true) (hs : Lacks name s)
    (ht : Lacks name ('<' :: t)) : Lacks name (s ++ '<' :: t) := by
  have hplain : '<' ∉ '/' :: name := by
    rw [List.mem_cons, not_or]
    exact ⟨by decide, (isRawElement_plain hname).2.1⟩
  unfold Lacks at ht ⊢
  rw [List.map_cons, show Text.lowerAscii '<' = '<' from rfl] at ht
  rw [List.map_append, List.map_cons, show Text.lowerAscii '<' = '<' from rfl]
  exact fun h => (Text.isInfix_append_cons_of_head hplain h).elim hs ht

end mark

end CodeTidy.Markup
