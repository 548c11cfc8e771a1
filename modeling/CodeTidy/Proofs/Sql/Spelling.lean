import CodeTidy.Proofs.Sql.Recasing

/-!
# Tokens spelled out with gaps between them

The layout writes tokens with white space between them, or with nothing at all where one hugs the
other. `Laid` is a text of this kind. Reading such a text gives the tokens back unless two
neighbours fuse: a number and the dot behind it, or a sign of a single operand and an operator or a
comment whose first character goes on with the sign. `Fuses` lists these pairs, and
`Laid.reads_iff` says that they are the only ones and that every one of them does harm.
-/

namespace CodeTidy.Sql

open Token

/-- A token is a sign of a single operand, by what stands in front of it. -/
def Signs (before : Option Token) (t : Token) : Prop :=
  (t = .operator ['-'] ∨ t = .operator ['+']) ∧
    ({ prev := before : State}).expectsOperand = true

/-- Two tokens that are written without a blank and then read as something else. -/
inductive Fuses (before : Option Token) : Token → Token → Prop
  /-- The dot goes on with the number. -/
  | number {c : Char} {tail : List Char} (hc : Text.isAsciiDigit c = true) :
    Fuses before (.literal (c :: tail)) (.punct '.')
  /-- The operator goes on with the sign. -/
  | sign {t : Token} {d : Char} {tail : List Char} (ht : Signs before t) (hd : d ∈ operatorTail) :
    Fuses before t (.operator (d :: tail))
  /-- The second dash opens a comment with the first. -/
  | dashes {u : Token} (ht : Signs before (.operator ['-'])) (hu : u.text.head? = some '-') :
    Fuses before (.operator ['-']) u

/-- A token fuses with the last of the tokens in front of it. -/
def Meets (ts : List Token) (u : Token) : Prop :=
  ∃ before t, ts = before ++ [t] ∧ Fuses before.getLast? t u

/-- Somewhere in a list two neighbours fuse. -/
def Fusion (ts : List Token) : Prop :=
  ∃ before t u after, ts = before ++ t :: u :: after ∧ Fuses before.getLast? t u

/-- A fusion is one in front of the last token or one with it. -/
theorem fusion_snoc {ts : List Token} {u : Token} :
    Fusion (ts ++ [u]) ↔ Fusion ts ∨ Meets ts u := by
  constructor
  · rintro ⟨before, t, u', after, heq, hfuses⟩
    -- The pair is the last two tokens if nothing stands behind it.
    rcases List.eq_nil_or_concat' after with rfl | ⟨after, last, rfl⟩
    · refine .inr ⟨before, t, ?_, ?_⟩
      · have hinit := congrArg List.dropLast heq
        simpa [List.dropLast_append_of_ne_nil] using hinit
      · have hlast := congrArg List.getLast? heq
        simp only [List.getLast?_append, List.getLast?_cons_cons, List.getLast?_singleton,
          Option.some_or, Option.some.injEq] at hlast
        exact hlast ▸ hfuses
    · refine .inl ⟨before, t, u', after, ?_, hfuses⟩
      have hinit := congrArg List.dropLast heq
      rw [List.dropLast_concat] at hinit
      rw [hinit, show before ++ t :: u' :: (after ++ [last])
        = (before ++ t :: u' :: after) ++ [last] by simp, List.dropLast_concat]
  · rintro (⟨before, t, u', after, rfl, hfuses⟩ | ⟨before, t, rfl, hfuses⟩)
    · exact ⟨before, t, u', after ++ [u], by simp, hfuses⟩
    · exact ⟨before, t, u, [], by simp, hfuses⟩

/-- Nothing fuses in front of the first token. -/
theorem not_fusion_nil : ¬Fusion [] := by
  rintro ⟨before, t, u, after, heq, -⟩
  simp at heq

/-- One token hugs the other: nothing stands between them. -/
inductive Hugs (before : Option Token) : Token → Token → Prop
  | opened {u : Token} : Hugs before (.punct '(') u
  | dotted {u : Token} : Hugs before (.punct '.') u
  | signed {t u : Token} (ht : Signs before t) : Hugs before t u
  | punct {t : Token} {c : Char} (ht : ∀ text, t ≠ .lineComment text) : Hugs before t (.punct c)

/-- What can stand between some tokens and the next one. -/
inductive Gap : List Token → List Char → Token → Prop
  /-- In front of the first token there can be any white space. -/
  | first {gap : List Char} {u : Token} (hgap : Text.allBlank gap = true) : Gap [] gap u
  /-- A new line, which no token goes on with. -/
  | line {ts : List Token} {gap : List Char} {u : Token} (hgap : Text.allBlank gap = true)
    (hmeets : ¬Meets ts u) : Gap ts ('\n' :: gap) u
  /-- A blank, except behind a comment to the end of the line. -/
  | space {ts : List Token} {u : Token} (hmeets : ¬Meets ts u)
    (hline : ∀ text, ts.getLast? ≠ some (.lineComment text)) : Gap ts [' '] u
  /-- Nothing, if one token hugs the other. -/
  | none {before : List Token} {t u : Token} (hhugs : Hugs before.getLast? t u) :
    Gap (before ++ [t]) [] u

/-- A text spells tokens, which it ends with, keywords in the wanted case. -/
inductive Laid (wanted : KeywordCase) : List Token → List Char → Prop
  | nil : Laid wanted [] []
  | snoc {ts : List Token} {s gap : List Char} {u : Token} (h : Laid wanted ts s)
    (hgap : Gap ts gap u) : Laid wanted (ts ++ [u]) (s ++ gap ++ written wanted u)

/-! ## What stops a token -/

/-- White space stops every token, a comment to the end of the line only if the line ends. -/
theorem stops_blank {t : Token} (ht : t.IsToken) {c : Char} (hc : Text.isBlank c = true)
    (hline : c = '\n' ∨ ∀ text, t ≠ .lineComment text) (rest : List Char) :
    t.Stops (c :: rest) := by
  cases ht with
  | lineComment =>
    rcases hline with rfl | hline
    · simp [Stops]
    · exact absurd rfl (hline _)
  | @quoted q body hq =>
    have hne : c ≠ q := by
      rintro rfl
      simp [isBlank_quotes c hq] at hc
    simp [Stops, isAsciiDigit_quotes q hq, hne]
  | number hd => simp [Stops, hd, continuesNumber_of_blank hc]
  | word => simp [Stops, continuesWord_of_blank hc]
  | blockComment | punct => trivial
  | operator =>
    have hsigns := Text.not_mem_of_blank hc
      (by decide : ('-' :: '*' :: operatorTail).all (!Text.isBlank ·) = true)
    simp only [List.mem_cons, not_or] at hsigns
    obtain ⟨hdash, hstar, htail⟩ := hsigns
    simp [Stops, hdash, hstar, htail]

/-- Punctuation stops every token but a comment to the end of the line and the number that fuses
with a dot. -/
theorem stops_punct_iff {before : Option Token} {t : Token} (ht : t.IsToken)
    (hline : ∀ text, t ≠ .lineComment text) {c : Char} (hc : c ∈ punctuation)
    (rest : List Char) : t.Stops (c :: rest) ↔ ¬Fuses before t (.punct c) := by
  have hall : ∀ c ∈ punctuation, c ∉ operatorTail ∧ c ≠ '-' ∧ c ≠ '*' ∧ c ∉ quotes ∧
      continuesWord c = false ∧ (c ≠ '.' → continuesNumber c = false) :=
    List.all_iff_forall_prop.mp (by decide +kernel)
  obtain ⟨htail, hdash, hstar, hquote, hword, hnumber⟩ := hall c hc
  cases ht with
  | lineComment => exact absurd rfl (hline _)
  | @quoted q body hq =>
    have hdigit := isAsciiDigit_quotes q hq
    have hne : c ≠ q := fun heq => hquote (heq ▸ hq)
    refine iff_of_true (by simp [Stops, hdigit, hne]) ?_
    intro hfuses
    cases hfuses with
    | number hd => simp [hdigit] at hd
  | number hd =>
    by_cases hdot : c = '.'
    · subst hdot
      have hcontinues : continuesNumber '.' = true := by decide
      exact iff_of_false (by simp [Stops, hd, hcontinues]) (not_not_intro (.number hd))
    · refine iff_of_true (by simp [Stops, hd, hnumber hdot]) ?_
      intro hfuses
      cases hfuses
      exact hdot rfl
  | word => exact iff_of_true (by simp [Stops, hword]) (by rintro ⟨⟩)
  | blockComment => exact iff_of_true trivial (by rintro ⟨⟩)
  | punct => exact iff_of_true trivial (by rintro ⟨⟩)
  | operator =>
    refine iff_of_true (by simp [Stops, htail, hdash, hstar]) ?_
    intro hfuses
    cases hfuses with
    | dashes _ hu => exact hdash (Option.some.inj hu)

/-- A character that goes on with an operator starts nothing but an operator. -/
theorem eq_operator_of_head {u : Token} (hu : u.IsToken) {d : Char} {tail : List Char}
    (htext : u.text = d :: tail) (hd : d ∈ operatorTail) : u = .operator (d :: tail) := by
  have hall : ∀ d ∈ operatorTail, d ≠ '-' ∧ d ≠ '/' ∧ d ∉ quotes ∧ Text.isAsciiDigit d = false ∧
      startsWord d = false ∧ d ∉ punctuation :=
    List.all_iff_forall_prop.mp (by decide +kernel)
  obtain ⟨hdash, hslash, hquote, hdigit, hword, hpunct⟩ := hall d hd
  cases hu with
  | lineComment => exact absurd (List.cons.inj htext).1.symm hdash
  | blockComment => exact absurd (List.cons.inj htext).1.symm hslash
  | quoted hq =>
    obtain ⟨rfl, -⟩ := List.cons.inj htext
    exact absurd hq hquote
  | number hc =>
    obtain ⟨rfl, -⟩ := List.cons.inj htext
    simp [hdigit] at hc
  | word _ hc =>
    obtain ⟨rfl, -⟩ := List.cons.inj htext
    simp [hword] at hc
  | punct hc =>
    obtain ⟨rfl, -⟩ := List.cons.inj htext
    exact absurd hc hpunct
  | operator =>
    obtain ⟨rfl, rfl⟩ := List.cons.inj htext
    rfl

/-- What stops a sign of a single operand is any token that does not fuse with it. -/
theorem stops_sign_iff {before : Option Token} {t u : Token} (ht : Signs before t)
    (hu : u.IsToken) (rest : List Char) : t.Stops (u.text ++ rest) ↔ ¬Fuses before t u := by
  obtain ⟨d, tail, htext, -⟩ := hu.exists_head
  rw [htext]
  constructor
  · intro hstops hfuses
    cases hfuses with
    | number => simp [Signs] at ht
    | sign _ hd =>
      obtain ⟨rfl, -⟩ := List.cons.inj htext
      obtain ⟨rfl | rfl, -⟩ := ht <;> exact hstops.1 _ rfl hd
    | dashes _ hhead =>
      rw [htext] at hhead
      exact hstops.2.1 rfl hhead
  · intro hfuses
    have hd : d ∉ operatorTail := by
      intro hd
      rw [eq_operator_of_head hu htext hd] at hfuses
      exact hfuses (.sign ht hd)
    obtain ⟨rfl | rfl, hoperand⟩ := ht
    · refine ⟨by simpa using hd, fun _ hhead => hfuses (.dashes ⟨.inl rfl, hoperand⟩ ?_), ?_⟩
      · rw [htext]
        exact hhead
      · simp
    · exact ⟨by simpa using hd, by simp, by simp⟩

/-- Punctuation is no sign. -/
theorem not_signs_punct {before : Option Token} {c : Char} : ¬Signs before (.punct c) := by
  simp [Signs]

/-- Nothing fuses with punctuation in front of it. -/
theorem not_fuses_behind_punct {before : Option Token} {c : Char} {u : Token} :
    ¬Fuses before (.punct c) u := by
  intro hfuses
  cases hfuses with
  | sign ht => exact not_signs_punct ht

/-- Nothing fuses with a word in front of it. -/
theorem not_fuses_behind_word {before : Option Token} {w : List Char} {u : Token} :
    ¬Fuses before (.word w) u := by
  intro hfuses
  cases hfuses with
  | sign ht => simp [Signs] at ht

/-- A word fuses with nothing in front of it. -/
theorem not_fuses_word {before : Option Token} {t : Token} {w : List Char}
    (hw : IsToken (.word w)) : ¬Fuses before t (.word w) := by
  intro hfuses
  cases hfuses with
  | dashes _ hhead =>
    cases hw with
    | word _ hc => exact not_mem_of_startsWord hc (by simp [Option.some.inj hhead])

/-- The case of a keyword does not matter for what it fuses with. -/
theorem fuses_recased {before : Option Token} {wanted : KeywordCase} {t u : Token}
    (hu : u.IsToken) : Fuses before t (u.recased wanted) ↔ Fuses before t u := by
  have hrecased : (u.recased wanted).IsToken := hu.recased
  unfold recased at hrecased ⊢
  split_ifs at hrecased ⊢ with hkeyword
  · obtain ⟨w, rfl, -⟩ := exists_word_of_isKeyword hkeyword
    exact iff_of_false (not_fuses_word hrecased) (not_fuses_word hu)
  · exact Iff.rfl

/-- A token fuses with the last of some tokens exactly if the two fuse. -/
theorem meets_snoc {before : List Token} {t u : Token} :
    Meets (before ++ [t]) u ↔ Fuses before.getLast? t u := by
  constructor
  · rintro ⟨before', t', heq, hfuses⟩
    obtain ⟨rfl, hlast⟩ := List.append_inj' heq rfl
    obtain rfl := List.singleton_inj.mp hlast
    exact hfuses
  · exact fun hfuses => ⟨before, t, rfl, hfuses⟩

/-- Whatever stands between two tokens, the first is stopped unless the two fuse. -/
theorem Gap.stops_iff {before : List Token} {t u : Token} {gap : List Char}
    (hgap : Gap (before ++ [t]) gap u) (ht : t.IsToken) (hu : u.IsToken) (wanted : KeywordCase)
    (rest : List Char) :
    t.Stops (gap ++ (written wanted u ++ rest)) ↔ ¬Meets (before ++ [t]) u := by
  generalize hts : before ++ [t] = ts at hgap
  cases hgap with
  | first => simp at hts
  | line _ hmeets => exact iff_of_true (stops_blank ht (by decide) (.inl rfl) _) hmeets
  | space hmeets hline =>
    refine iff_of_true (stops_blank ht (by decide) (.inr ?_) _) hmeets
    rintro text rfl
    exact hline text (by rw [← hts]; simp)
  | @none before' t' u hhugs =>
    obtain ⟨rfl, hlast⟩ := List.append_inj' hts rfl
    obtain rfl := List.singleton_inj.mp hlast
    rw [meets_snoc, List.nil_append]
    cases hhugs with
    | opened => exact iff_of_true trivial not_fuses_behind_punct
    | dotted => exact iff_of_true trivial not_fuses_behind_punct
    | signed hsigns =>
      rw [← text_recased, stops_sign_iff hsigns hu.recased, fuses_recased hu]
    | punct hline =>
      cases hu with
      | punct hc => exact stops_punct_iff ht hline hc rest

/-- White space stands between tokens, or nothing does. -/
theorem Gap.blank {ts : List Token} {u : Token} {gap : List Char} (h : Gap ts gap u) :
    Text.allBlank gap = true := by
  cases h with
  | first hgap => exact hgap
  | line hgap => simpa [Text.allBlank, Text.isBlank] using hgap
  | space => decide
  | none => rfl

/-- Reading a text that spells tokens gives them back, and then the tokens of what follows, exactly
if no two of them fuse and what follows stops the last. -/
theorem Laid.reads_iff {wanted : KeywordCase} {ts : List Token} {s : List Char}
    (h : Laid wanted ts s) (hts : ∀ t ∈ ts, t.IsToken) (us : List Token) (rest : List Char) :
    Reads (ts.map (recased wanted) ++ us) (s ++ rest)
      ↔ ¬Fusion ts ∧ (∀ t ∈ ts.getLast?, t.Stops rest) ∧ Reads us rest := by
  induction h generalizing us rest with
  | nil => simp [not_fusion_nil]
  | @snoc ts s gap u h hgap ih =>
    have hu : u.IsToken := hts u (by simp)
    have hts' : ∀ t ∈ ts, t.IsToken := fun t ht => hts t (by simp [ht])
    have hfirst : (∀ t ∈ ts.getLast?, t.Stops (gap ++ (written wanted u ++ rest))) ↔
        ¬Meets ts u := by
      rcases List.eq_nil_or_concat' ts with rfl | ⟨before, t, rfl⟩
      · refine iff_of_true (by simp) ?_
        rintro ⟨before, t, heq, -⟩
        simp at heq
      · simpa using hgap.stops_iff (hts' t (by simp)) hu wanted rest
    have hsecond : Reads (u.recased wanted :: us) (gap ++ (written wanted u ++ rest)) ↔
        u.Stops rest ∧ Reads us rest := by
      rw [reads_blank_append hgap.blank, ← text_recased, reads_cons_iff hu.recased, stops_recased]
    have hih := ih hts' (u.recased wanted :: us) (gap ++ (written wanted u ++ rest))
    rw [hfirst, hsecond] at hih
    rw [List.map_append, List.map_singleton, List.append_assoc, List.singleton_append,
      List.append_assoc, List.append_assoc, hih, fusion_snoc, List.getLast?_concat]
    simp only [Option.mem_some_iff, forall_eq', not_or, and_assoc]

end CodeTidy.Sql
