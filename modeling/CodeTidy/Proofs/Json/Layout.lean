import CodeTidy.Proofs.Brace.Data

/-!
# The layout of a JSON text

The layout of data reads a text lexeme by lexeme and breaks lines behind brackets and commas. On the
form of a value it writes the indented form, whatever white space the form has: `lays_spaced`
follows the layout through the form of a value, from a line on which the value may start to one on
which it has ended.
-/

namespace CodeTidy

/-- White space of JSON is white space. -/
theorem Json.Spaces.allBlank {g : List Char} (h : Json.Spaces g) : Text.allBlank g = true := by
  rw [Text.allBlank_iff]
  intro c hc
  have hspace := h c hc
  simp only [Json.isSpace, Bool.or_eq_true, beq_iff_eq] at hspace
  rcases hspace with ((rfl | rfl) | rfl) | rfl <;> decide

/-- A form without empty lines. -/
structure Json.Spacing.Sparse (s : Json.Spacing) : Prop extends s.Blank where
  breaks : ∀ depth, (s.gap depth).count '\n' ≤ 1

/-- The compact form is on one line. -/
theorem Json.Spacing.sparse_compact : Json.Spacing.compact.Sparse where
  toBlank := Json.Spacing.blank_compact
  breaks _ := Nat.zero_le 1

/-- The indented form has a line break between items if its unit has none. -/
theorem Json.Spacing.sparse_indented {unit : List Char} (h : Json.Spaces unit)
    (hunit : '\n' ∉ unit) : (Json.Spacing.indented unit).Sparse where
  toBlank := Json.Spacing.blank_indented h
  breaks depth := by
    have hdepth : '\n' ∉ (List.replicate depth unit).flatten :=
      fun hmem => hunit (Json.mem_unit_of_mem_indentation hmem)
    show ('\n' :: (List.replicate depth unit).flatten).count '\n' ≤ 1
    rw [List.count_cons_self, List.count_eq_zero.mpr hdepth]

namespace Brace

variable {cfg : Config}

/-! ## From the start of a value to its end -/

/-- What is on the finished lines and on the current one, which is indented. -/
def written (u : List Char) (n : ℕ) (done : List (List Char)) (line : List Char) : List Char :=
  Text.lined done ++ (indent u n ++ line.reverse)

/-- A value may start behind what is on the line. -/
structure Fresh (line : List Char) : Prop where
  head : ∀ d, line.reverse.head? = some d → Text.isBlank d = false
  blank : withBlank line = line

/-- The text `x` has been written. It ends on the current line, or on the last finished line if what
follows has no place behind it. -/
inductive Ends (u : List Char) (n : ℕ) (x rest : List Char) : List (List Char) → List Char → Prop
  | held {done : List (List Char)} {line : List Char} (h : written u n done line = x)
    (hline : Text.Solid line.reverse) : Ends u n x rest done line
  | finished {done : List (List Char)} (h : Text.lined done = x ++ ['\n'])
    (hrest : followOf rest = .other) : Ends u n x rest done []

/-- Inside `n` containers the text is laid out as `x`. -/
def Lays (cfg : Config) (n : ℕ) (text x : List Char) : Prop :=
  ∀ (done : List (List Char)) (line rest : List Char) (breaks : ℕ), Fresh line →
    followOf rest ≠ .word → ∃ done' line',
      (State.inside n done line breaks).lay cfg (text ++ rest) =
        (State.inside n done' line' 0).lay cfg rest ∧
      Ends cfg.unit n (written cfg.unit n done line ++ x) rest done' line'

/-- A value may start on an empty line. -/
theorem fresh_nil : Fresh [] := ⟨nofun, rfl⟩

/-- A text starts with a character that is neither white space nor a closing bracket. -/
def Starts (text : List Char) : Prop :=
  ∃ c t, text = c :: t ∧ Text.isBlank c = false ∧ ¬Json.IsCloser c

/-- What goes on a line where a value may start is not trimmed. -/
theorem Fresh.solid {line text : List Char} (h : Fresh line) (htext : Text.Solid text) :
    Text.Solid (line.reverse ++ text) := by
  refine ⟨List.append_ne_nil_of_right_ne_nil _ htext.nonempty, ?_, ?_⟩
  · intro d hd
    rw [List.head?_append] at hd
    cases hline : line.reverse.head? with
    | none =>
      rw [hline] at hd
      exact htext.trimmed.head d hd
    | some e =>
      rw [hline] at hd
      obtain rfl := Option.some.inj hd
      exact h.head e hline
  · intro d hd
    rw [List.getLast?_append_of_ne_nil _ htext.nonempty] at hd
    exact htext.trimmed.last d hd

/-- A text that goes on the line as it is is laid out as itself. -/
theorem lays_of_written {n : ℕ} {text : List Char} (htext : Text.Solid text)
    (h : ∀ (done : List (List Char)) (line rest : List Char) (breaks : ℕ), Fresh line →
      (State.inside n done line breaks).lay cfg (text ++ rest) =
        (State.inside n done (text.reverse ++ line) 0).lay cfg rest) : Lays cfg n text text := by
  intro done line rest breaks hline _
  have hreverse : (text.reverse ++ line).reverse = line.reverse ++ text := by
    rw [List.reverse_append, List.reverse_reverse]
  refine ⟨done, text.reverse ++ line, h done line rest breaks hline, .held ?_ ?_⟩
  · unfold written
    rw [hreverse]
    simp only [List.append_assoc]
  · rw [hreverse]
    exact hline.solid htext

/-- When the line is finished behind a text, the text ends on the last finished line. -/
theorem Ends.flush {u x rest : List Char} {n : ℕ} {done : List (List Char)} {line line' : List Char}
    (h : Ends u n x rest done line) (hline' : line' = line ∨ line' = withBlank line) (breaks : ℕ) :
    ∃ done', (State.inside n done line' breaks).flush u = State.inside n done' [] breaks ∧
      Text.lined done' = x ++ ['\n'] := by
  cases h with
  | held h hline =>
    have htrim : Text.trim line'.reverse = line.reverse := by
      rcases hline' with rfl | rfl
      · exact Text.trim_eq_self hline.trimmed
      · rw [trim_withBlank]
        exact Text.trim_eq_self hline.trimmed
    refine ⟨_, flush_inside (by rw [htrim]; exact hline.nonempty) breaks, ?_⟩
    rw [htrim, Text.lined_cons, ← h]
    unfold written
    simp only [List.append_assoc]
  | finished h hrest =>
    obtain rfl : line' = [] := by
      rcases hline' with rfl | rfl <;> rfl
    exact ⟨done, flush_inside_nil u n done breaks, h⟩

/-- A finished line ends, and the next one is indented. -/
theorem written_cons (u : List Char) (n : ℕ) (text : List Char) (done : List (List Char)) :
    written u n (text :: done) [] = Text.lined done ++ (text ++ Json.newline u n) := by
  unfold written Json.newline indent
  rw [Text.lined_cons]
  simp only [List.append_assoc, List.cons_append, List.nil_append, List.reverse_nil,
    List.append_nil]

/-! ## Containers -/

section
variable {β : Type} {s : Json.Spacing} {n : ℕ} {o c : Char} {f g : β → List Char} {bs : List β}

/-- Nothing that follows an item is a word. -/
theorem followOf_following (hs : s.Sparse) (hpair : IsPair o c) (bs : List β) (rest : List Char) :
    followOf ((bs.map f).flatMap (fun q => ',' :: (s.gap (n + 1) ++ q)) ++ (s.gap n ++ c :: rest)) ≠
      .word := by
  cases bs with
  | nil => exact followOf_closer hpair (hs.gap n).allBlank rest
  | cons b bs =>
    rw [List.map_cons, List.flatMap_cons, List.cons_append, List.cons_append, followOf_comma]
    exact nofun

/-- An item is laid out on an empty line, whatever white space is in front of it. -/
theorem Lays.behind_gap {m : ℕ} {text x rest : List Char} (h : Lays cfg m text x)
    (hdata : cfg.mode = .data) (hs : s.Sparse) (done : List (List Char))
    (hrest : followOf rest ≠ .word) : ∃ done' line',
      (State.inside m done [] 0).lay cfg (s.gap m ++ (text ++ rest)) =
        (State.inside m done' line' 0).lay cfg rest ∧
      Ends cfg.unit m (written cfg.unit m done [] ++ x) rest done' line' := by
  have hbreaks : 0 + (s.gap m).count '\n' ≤ 1 := by
    rw [Nat.zero_add]
    exact hs.breaks m
  obtain ⟨line, breaks, hline, hgap⟩ :=
    lay_gap hdata (hs.gap m) hbreaks m done [] (text ++ rest)
  obtain rfl : line = [] := by
    rcases hline with rfl | rfl <;> rfl
  rw [hgap]
  exact h done [] rest breaks fresh_nil hrest

/-- The text of items that are listed is laid out item by item, each on a line of its own. -/
theorem lay_following (hdata : cfg.mode = .data) (hs : s.Sparse) (hpair : IsPair o c)
    (h : ∀ b ∈ bs, Lays cfg (n + 1) (f b) (g b)) {x rest : List Char} {done : List (List Char)}
    {line : List Char}
    (hends : Ends cfg.unit (n + 1) x
      ((bs.map f).flatMap (fun q => ',' :: (s.gap (n + 1) ++ q)) ++ (s.gap n ++ c :: rest))
      done line) :
    ∃ done' line',
      (State.inside (n + 1) done line 0).lay cfg
          ((bs.map f).flatMap (fun q => ',' :: (s.gap (n + 1) ++ q)) ++ (s.gap n ++ c :: rest)) =
        (State.inside (n + 1) done' line' 0).lay cfg (s.gap n ++ c :: rest) ∧
      Ends cfg.unit (n + 1)
        (x ++ (bs.map g).flatMap fun q => ',' :: (Json.newline cfg.unit (n + 1) ++ q))
        (s.gap n ++ c :: rest) done' line' := by
  induction bs generalizing x done line with
  | nil =>
    refine ⟨done, line, rfl, ?_⟩
    rw [List.map_nil, List.flatMap_nil, List.append_nil]
    exact hends
  | cons b bs ih =>
    rw [List.forall_mem_cons] at h
    have hfollow := followOf_following (f := f) (n := n) hs hpair bs rest
    rw [List.map_cons, List.flatMap_cons, List.cons_append, List.cons_append, List.append_assoc,
      List.append_assoc] at hends ⊢
    -- The comma keeps a closing bracket in front of it on its line.
    cases hends with
    | finished _ hother =>
      rw [followOf_comma] at hother
      exact absurd hother nofun
    | held hx hline =>
      obtain ⟨done', line', hitem, hends⟩ := h.1.behind_gap hdata hs
        ((indent cfg.unit (n + 1) ++ (line.reverse ++ [','])) :: done) hfollow
      obtain ⟨done'', line'', hrest, hends⟩ := ih h.2 hends
      refine ⟨done'', line'', ?_, ?_⟩
      · rw [lay_comma hdata hline, hitem, hrest]
      · rw [written_cons] at hends
        rw [List.map_cons, List.flatMap_cons, ← hx]
        unfold written
        simpa only [List.append_assoc, List.cons_append, List.nil_append] using hends

/-- Behind the items, the closing bracket starts a line one level up. -/
theorem Ends.lay_closer (hdata : cfg.mode = .data) (hs : s.Sparse) (hpair : IsPair o c)
    {x rest : List Char} {done : List (List Char)} {line : List Char}
    (h : Ends cfg.unit (n + 1) x (s.gap n ++ c :: rest) done line) (hrest : followOf rest ≠ .word) :
    ∃ done' line',
      (State.inside (n + 1) done line 0).lay cfg (s.gap n ++ c :: rest) =
        (State.inside n done' line' 0).lay cfg rest ∧
      Ends cfg.unit n (x ++ (Json.newline cfg.unit n ++ [c])) rest done' line' := by
  have hbreaks : 0 + (s.gap n).count '\n' ≤ 1 := by
    rw [Nat.zero_add]
    exact hs.breaks n
  have hsolid : Text.Solid [c].reverse :=
    ⟨List.cons_ne_nil c [], Text.trimmed_concat (s := []) nofun hpair.spec.2.1⟩
  obtain ⟨line', breaks, hline', hgap⟩ :=
    lay_gap hdata (hs.gap n) hbreaks (n + 1) done line (c :: rest)
  obtain ⟨done', hflush, hdone'⟩ := h.flush hline' 0
  rw [hgap, Brace.lay_closer hdata hpair n done done' hflush hrest breaks]
  by_cases hmark : followOf rest = .mark
  · rw [if_pos hmark]
    refine ⟨done', [c], rfl, .held ?_ hsolid⟩
    unfold written Json.newline indent
    rw [hdone']
    simp only [List.append_assoc, List.cons_append, List.nil_append, List.reverse_singleton]
  · rw [if_neg hmark]
    refine ⟨_, [], rfl, .finished ?_ ?_⟩
    · rw [Text.lined_cons, hdone']
      unfold Json.newline indent
      simp only [List.append_assoc, List.cons_append, List.nil_append]
    · cases hfollow : followOf rest with
      | mark => exact absurd hfollow hmark
      | word => exact absurd hfollow hrest
      | other => rfl

/-- Brackets with items between them are laid out with each item on a line of its own, and empty
ones as they are. -/
theorem lays_enclose (hdata : cfg.mode = .data) (hs : s.Sparse) (hpair : IsPair o c)
    (hstarts : ∀ b ∈ bs, Starts (f b)) (h : ∀ b ∈ bs, Lays cfg (n + 1) (f b) (g b)) :
    Lays cfg n (Json.enclose s n o c (bs.map f))
      (Json.enclose (.indented cfg.unit) n o c (bs.map g)) := by
  cases bs with
  | nil =>
    have hsolid : Text.Solid [o, c] := by
      refine ⟨nofun, Text.trimmed_concat (s := [o]) ?_ hpair.spec.2.1⟩
      intro d hd
      obtain rfl := Option.some.inj hd
      exact hpair.spec.1
    exact lays_of_written hsolid fun done line rest breaks hline =>
      lay_pair hdata hpair hline.blank n done rest breaks
  | cons b bs =>
    rw [List.forall_mem_cons] at h hstarts
    intro done line rest breaks hline hrest
    rw [List.map_cons, List.map_cons, Json.enclose, Json.enclose]
    simp only [List.cons_append, List.append_assoc, List.nil_append]
    have hfollow := followOf_following (f := f) (n := n) hs hpair bs rest
    have hopen : ∀ tail,
        ((s.gap (n + 1) ++ (f b ++ tail)).dropWhile Text.isBlank).head? ≠ some c := by
      obtain ⟨d, t, hd, hblank, hnot⟩ := hstarts.1
      intro tail heq
      rw [hd, List.cons_append,
        List.dropWhile_append_of_pos (Text.allBlank_iff.mp (hs.gap (n + 1)).allBlank),
        List.dropWhile_cons_of_neg (by simp [hblank])] at heq
      obtain rfl := Option.some.inj heq
      exact hnot hpair.spec.2.2
    -- The bracket finishes the line, so the first item starts on one of its own.
    obtain ⟨done', line', hitem, hends⟩ := h.1.behind_gap hdata hs
      ((indent cfg.unit n ++ (line.reverse ++ [o])) :: done) hfollow
    obtain ⟨done', line', hitems, hends⟩ := lay_following hdata hs hpair h.2 hends
    obtain ⟨done', line', hclose, hends⟩ := hends.lay_closer hdata hs hpair hrest
    refine ⟨done', line', ?_, ?_⟩
    · rw [lay_opener hdata hpair hline.head n done (hopen _), hitem, hitems, hclose]
    · rw [written_cons] at hends
      unfold written
      simpa only [Json.Spacing.indented, List.append_assoc, List.cons_append, List.nil_append]
        using hends

end

/-! ## Values -/

/-- A character of a number. -/
theorem isWordChar_of_isNumeric {c : Char} (h : Json.isNumeric c = true) : isWordChar c = true := by
  unfold Json.isNumeric at h
  rw [Bool.or_eq_true] at h
  rcases h with hdigit | hmark
  · have hascii : Text.isAsciiDigit c = true := hdigit
    rw [isWordChar, Text.isAsciiAlphanumeric, hascii, Bool.or_true, Bool.true_or]
  · have hall : ['-', '+', '.', 'e', 'E'].all isWordChar = true := by decide
    exact List.all_eq_true.mp hall c (List.contains_iff_mem.mp hmark)

/-- A word or a number is laid out as itself. -/
theorem lays_word (hdata : cfg.mode = .data) (n : ℕ) {word : List Char} (hne : word ≠ [])
    (hword : word.all isWordChar = true) : Lays cfg n word word := by
  rw [List.all_eq_true] at hword
  have hsolid : Text.Solid word := by
    refine ⟨hne, ?_, ?_⟩
    · exact fun c hc => isBlank_of_wordChar (hword c (List.mem_of_mem_head? hc))
    · exact fun c hc => isBlank_of_wordChar (hword c (List.mem_of_mem_getLast? hc))
  exact lays_of_written hsolid fun done line rest breaks _ =>
    lay_word hdata hne hword n done line rest breaks

/-- A string is not trimmed. -/
theorem solid_stringText (x : String) : Text.Solid (Json.stringText x) := by
  have hquote : Text.isBlank '"' = false := by decide
  have hhead : ∀ d, ('"' :: x.toList.flatMap Json.stringChar).head? = some d →
      Text.isBlank d = false := by
    intro d hd
    obtain rfl := Option.some.inj hd
    exact hquote
  exact ⟨nofun, Text.trimmed_concat hhead hquote⟩

/-- A member is laid out with one blank behind its colon. -/
theorem lays_member (hdata : cfg.mode = .data) {s : Json.Spacing} (hs : s.Sparse) {n : ℕ}
    (key : String) {text x : List Char} (hstarts : Starts text) (h : Lays cfg n text x) :
    Lays cfg n (Json.stringText key ++ ':' :: (s.colon ++ text))
      (Json.stringText key ++ ':' :: ' ' :: x) := by
  intro done line rest breaks hline hrest
  have hreverse : (' ' :: ':' :: ((Json.stringText key).reverse ++ line)).reverse =
      line.reverse ++ (Json.stringText key ++ [':', ' ']) := by
    simp
  have hfresh : Fresh (' ' :: ':' :: ((Json.stringText key).reverse ++ line)) := by
    refine ⟨?_, rfl⟩
    have hsolid := hline.solid (solid_stringText key)
    rw [hreverse, ← List.append_assoc, List.head?_append_of_ne_nil _ hsolid.nonempty]
    exact hsolid.trimmed.head
  obtain ⟨done', line', hvalue, hends⟩ := h done _ rest 0 hfresh hrest
  refine ⟨done', line', ?_, ?_⟩
  · obtain ⟨c, t, rfl, hc, -⟩ := hstarts
    rw [List.append_assoc, lay_string hdata, List.cons_append, List.append_assoc, List.cons_append,
      lay_colon hdata hs.colon.allBlank hc]
    exact hvalue
  · unfold written at hends ⊢
    rw [hreverse] at hends
    simpa only [List.append_assoc, List.cons_append, List.nil_append] using hends

/-- A form of a value starts neither with white space nor with a closing bracket. -/
theorem starts_spaced {s : Json.Spacing} (hs : s.Blank) (n : ℕ) (v : Json) :
    Starts (Json.spaced s n v) := by
  have hspells := Json.spells_spaced hs n v
  obtain ⟨c, t, htext, -, hcloser⟩ := Json.Spells.begins _ _ hspells
  obtain ⟨c', t', htext', hlead⟩ := hspells.exists_lead
  obtain ⟨rfl, rfl⟩ := List.cons.inj (htext.symm.trans htext')
  refine ⟨c, t, htext, ?_, hcloser⟩
  unfold Json.leadOf at hlead
  split_ifs at hlead with hnumeric
  · exact isBlank_of_wordChar (isWordChar_of_isNumeric hnumeric)
  · by_contra hblank
    rw [Bool.not_eq_false] at hblank
    have hmem := (Json.document v).lead_mem
    rw [← hlead] at hmem
    exact Text.not_mem_of_blank hblank (by decide) hmem

/-- A form of a value is laid out as its indented form. -/
theorem lays_spaced (hdata : cfg.mode = .data) {s : Json.Spacing} (hs : s.Sparse) (n : ℕ)
    (v : Json) : Lays cfg n (Json.spaced s n v) (Json.spaced (.indented cfg.unit) n v) := by
  induction v using Json.induction generalizing n with
  | null =>
    rw [Json.spaced, Json.spaced]
    exact lays_word hdata n (List.cons_ne_nil _ _) (by decide)
  | bool b =>
    cases b with
    | true =>
      rw [Json.spaced, Json.spaced]
      exact lays_word hdata n (List.cons_ne_nil _ _) (by decide)
    | false =>
      rw [Json.spaced, Json.spaced]
      exact lays_word hdata n (List.cons_ne_nil _ _) (by decide)
  | num z =>
    obtain ⟨c, t, htext, -⟩ := starts_spaced hs.toBlank n (.num z)
    rw [Json.spaced] at htext
    rw [Json.spaced, Json.spaced]
    have hne : z.text ≠ [] := by
      rw [htext]
      exact List.cons_ne_nil c t
    have hnumeric := z.literal.text_isNumeric
    rw [z.literal_text] at hnumeric
    exact lays_word hdata n hne
      (List.all_eq_true.mpr fun c hc => isWordChar_of_isNumeric (hnumeric c hc))
  | str x =>
    rw [Json.spaced, Json.spaced]
    exact lays_of_written (solid_stringText x) fun done line rest breaks _ =>
      lay_string hdata x n done line rest breaks
  | arr vs ih =>
    rw [Json.spaced, Json.spaced]
    exact lays_enclose hdata hs (.inl ⟨rfl, rfl⟩)
      (fun v _ => starts_spaced hs.toBlank (n + 1) v) fun v hv => ih v hv (n + 1)
  | obj ms ih =>
    rw [Json.spaced, Json.spaced]
    refine lays_enclose hdata hs (.inr ⟨rfl, rfl⟩) ?_ ?_
    · intro m _
      exact ⟨'"', _, rfl, by decide, by rintro (h | h) <;> exact absurd h (by decide)⟩
    · intro m hm
      exact lays_member hdata hs m.1 (starts_spaced hs.toBlank (n + 1) m.2) (ih m hm (n + 1))

/-- The layout of data writes the indented form of a value, whatever form of the value it reads. -/
theorem layout_spaced (hdata : cfg.mode = .data) {s : Json.Spacing} (hs : s.Sparse)
    {gap : List Char} (hgap : Json.Spaces gap) (hbreaks : gap.count '\n' ≤ 1) (v : Json) :
    layout cfg (Json.spaced s 0 v ++ gap) = Json.pretty cfg.unit 0 v ++ ['\n'] := by
  have hend : followOf gap = .other := by
    unfold followOf
    rw [List.dropWhile_eq_nil_iff.mpr (Text.allBlank_iff.mp hgap.allBlank)]
  obtain ⟨done, line, hvalue, hends⟩ :=
    lays_spaced hdata hs 0 v [] [] gap 0 fresh_nil (by rw [hend]; exact nofun)
  obtain ⟨line', breaks, hline', htail⟩ :=
    lay_gap hdata hgap (by rwa [Nat.zero_add]) 0 done line []
  obtain ⟨done', hflush, hdone'⟩ := hends.flush hline' breaks
  rw [List.append_nil] at htail
  -- The value has ended on the line that is left or on the last one, and finishing ends both.
  show Text.lined ((({} : State).lay cfg (Json.spaced s 0 v ++ gap)).flush cfg.unit).done = _
  have hstart : ({} : State) = State.inside 0 [] [] 0 := rfl
  have hlay : (State.inside 0 done line' breaks).lay cfg [] =
      State.inside 0 done line' breaks := rfl
  rw [hstart, hvalue, htail, hlay, hflush, Json.pretty_eq]
  exact hdone'

end Brace

end CodeTidy
