import CodeTidy.Proofs.Text.Blank
import CodeTidy.Proofs.Text.Letter
import CodeTidy.Sql.Token
import Mathlib.Tactic.SplitIfs

/-!
# What reading takes from a text

`IsToken` says which values are tokens that a text can have, and `Stops` that a token ends where it
does: that the characters behind it do not go on with it. `Reads` relates tokens to a text that
consists of them, each followed by something that stops it, with white space between them, and
`ofText_iff` says that reading a text finds tokens exactly if they are related to it. So a text with
tokens has one division into tokens and white space, and whether two tokens can stand next to each
other is a matter of `Stops` alone.
-/

namespace CodeTidy.Sql.Token

/-- A value is a token that some text has. -/
inductive IsToken : Token → Prop
  /-- Two dashes, and the rest of a line up to its last character that is not white space. -/
  | lineComment {tail : List Char} (hline : '\n' ∉ tail)
    (htrim : Text.trimEnd ('-' :: '-' :: tail) = '-' :: '-' :: tail) :
    IsToken (.lineComment ('-' :: '-' :: tail))
  /-- The first end of the comment is the end of the token. -/
  | blockComment {body : List Char}
    (hcut : cutComment ['*', '/'] body = some (('/' :: '*' :: body).reverse, [])) :
    IsToken (.blockComment ('/' :: '*' :: body))
  /-- The first quote that is not doubled is the end of the token. -/
  | quoted {q : Char} {body : List Char} (hq : q ∈ quotes)
    (hcut : cutQuoted q [q] body = some ((q :: body).reverse, [])) :
    IsToken (.literal (q :: body))
  /-- A digit starts a number. -/
  | number {c : Char} {tail : List Char} (hc : Text.isAsciiDigit c = true)
    (htail : ∀ d ∈ tail, continuesNumber d = true) : IsToken (.literal (c :: tail))
  /-- A letter or a mark starts a word. -/
  | word {c : Char} {tail : List Char} (hdigit : Text.isAsciiDigit c = false)
    (hc : startsWord c = true) (htail : ∀ d ∈ tail, continuesWord d = true) :
    IsToken (.word (c :: tail))
  /-- A single character of punctuation. -/
  | punct {c : Char} (hc : c ∈ punctuation) : IsToken (.punct c)
  /-- Anything else starts an operator. -/
  | operator {c : Char} {tail : List Char} (hblank : Text.isBlank c = false) (hquote : c ∉ quotes)
    (hdigit : Text.isAsciiDigit c = false) (hword : startsWord c = false)
    (hpunct : c ∉ punctuation) (htail : ∀ d ∈ tail, d ∈ operatorTail) :
    IsToken (.operator (c :: tail))

/-- The characters behind a token do not go on with it. -/
def Stops : Token → List Char → Prop
  | .word _, rest => ∀ d ∈ rest.head?, continuesWord d = false
  | .literal text, rest => ∀ c ∈ text.head?,
    if Text.isAsciiDigit c then ∀ d ∈ rest.head?, continuesNumber d = false
    else rest.head? ≠ some c
  | .lineComment _, rest => ∀ d ∈ rest.takeWhile (· != '\n'), Text.isBlank d = true
  | .operator text, rest => (∀ d ∈ rest.head?, d ∉ operatorTail) ∧
    (text = ['-'] → rest.head? ≠ some '-') ∧ (text = ['/'] → rest.head? ≠ some '*')
  | .blockComment _, _ => True
  | .punct _, _ => True

/-- A text consists of tokens, each followed by something that stops it, and white space. -/
inductive Reads : List Token → List Char → Prop
  | nil : Reads [] []
  | blank {c : Char} {s : List Char} {ts : List Token} (hc : Text.isBlank c = true)
    (h : Reads ts s) : Reads ts (c :: s)
  | token {t : Token} {rest : List Char} {ts : List Token} (ht : t.IsToken)
    (hstops : t.Stops rest) (h : Reads ts rest) : Reads (t :: ts) (t.text ++ rest)

/-! ## First characters -/

/-- No white space starts a word. -/
theorem startsWord_of_blank {c : Char} (h : Text.isBlank c = true) : startsWord c = false :=
  Text.forall_blank (P := fun c => startsWord c = false) (by decide +kernel) h

/-- No white space is a digit. -/
theorem isAsciiDigit_of_blank {c : Char} (h : Text.isBlank c = true) :
    Text.isAsciiDigit c = false :=
  Text.forall_blank (P := fun c => Text.isAsciiDigit c = false) (by decide +kernel) h

/-- What starts a word is none of the characters that start anything else. -/
theorem not_mem_of_startsWord {c : Char} (h : startsWord c = true) :
    c ∉ ['-', '/', '\'', '"', '\x60', ',', ';', '(', ')', '.'] := by
  intro hc
  have hall : ∀ d ∈ ['-', '/', '\'', '"', '\x60', ',', ';', '(', ')', '.'],
      startsWord d = false := List.all_iff_forall_prop.mp (by decide +kernel)
  simp [hall c hc] at h

/-- Nor is a digit. -/
theorem not_mem_of_isAsciiDigit {c : Char} (h : Text.isAsciiDigit c = true) :
    c ∉ ['-', '/', '\'', '"', '\x60', ',', ';', '(', ')', '.'] := by
  intro hc
  have hall : ∀ d ∈ ['-', '/', '\'', '"', '\x60', ',', ';', '(', ')', '.'],
      Text.isAsciiDigit d = false := List.all_iff_forall_prop.mp (by decide +kernel)
  simp [hall c hc] at h

/-- No quote is white space. -/
theorem isBlank_quotes : ∀ q ∈ quotes, Text.isBlank q = false :=
  List.all_iff_forall_prop.mp (by decide)

/-- No quote is a digit. -/
theorem isAsciiDigit_quotes : ∀ q ∈ quotes, Text.isAsciiDigit q = false :=
  List.all_iff_forall_prop.mp (by decide)

/-- No punctuation is white space. -/
theorem isBlank_punctuation : ∀ c ∈ punctuation, Text.isBlank c = false :=
  List.all_iff_forall_prop.mp (by decide)

/-- A token starts with a character that is not white space. -/
theorem IsToken.exists_head {t : Token} (h : t.IsToken) :
    ∃ c tail, t.text = c :: tail ∧ Text.isBlank c = false := by
  cases h with
  | lineComment => exact ⟨'-', _, rfl, by decide⟩
  | blockComment => exact ⟨'/', _, rfl, by decide⟩
  | @quoted q body hq => exact ⟨q, body, rfl, isBlank_quotes q hq⟩
  | @number c tail hc =>
    refine ⟨c, tail, rfl, ?_⟩
    by_contra hblank
    simp [isAsciiDigit_of_blank (by simpa using hblank)] at hc
  | @word c tail _ hc =>
    refine ⟨c, tail, rfl, ?_⟩
    by_contra hblank
    simp [startsWord_of_blank (by simpa using hblank)] at hc
  | @punct c hc => exact ⟨c, [], rfl, isBlank_punctuation c hc⟩
  | @operator c tail hblank => exact ⟨c, tail, rfl, hblank⟩

/-! ## Comments and quoted literals -/

/-- A comment that ends with the text ends there, whatever follows. -/
theorem cutComment_append {acc body x : List Char} (h : cutComment acc body = some (x, []))
    (rest : List Char) : cutComment acc (body ++ rest) = some (x, rest) := by
  induction acc, body using cutComment.induct with
  | case1 acc body =>
    simp only [cutComment, Option.some.injEq, Prod.mk.injEq] at h
    obtain ⟨rfl, rfl⟩ := h
    simp [cutComment]
  | case2 acc c body hopen ih =>
    rw [cutComment.eq_2 _ _ _ hopen] at h
    rw [List.cons_append, cutComment.eq_2, ih h]
    intro r hc hr
    cases body with
    | nil => simp [cutComment] at h
    | cons d body => exact hopen body hc (by rw [(List.cons.inj hr).1])
  | case3 acc => simp [cutComment] at h

/-- A comment cut off a text ends with its first end, and stays one without what follows. -/
theorem cutComment_spec {acc s x rest : List Char} (h : cutComment acc s = some (x, rest)) :
    ∃ body, s = body ++ rest ∧ x = body.reverse ++ acc ∧
      cutComment acc body = some (x, []) := by
  induction acc, s using cutComment.induct with
  | case1 acc s =>
    simp only [cutComment, Option.some.injEq, Prod.mk.injEq] at h
    obtain ⟨rfl, rfl⟩ := h
    exact ⟨['*', '/'], rfl, rfl, rfl⟩
  | case2 acc c s hopen ih =>
    rw [cutComment.eq_2 _ _ _ hopen] at h
    obtain ⟨body, rfl, rfl, hcut⟩ := ih h
    refine ⟨c :: body, rfl, by simp, ?_⟩
    rw [cutComment.eq_2, hcut]
    intro r hc hr
    exact hopen (r ++ rest) hc (by rw [hr]; rfl)
  | case3 acc => simp [cutComment] at h

/-- A quoted literal that ends with the text ends there, unless its quote follows. -/
theorem cutQuoted_append {q : Char} {acc body x : List Char}
    (h : cutQuoted q acc body = some (x, [])) {rest : List Char} (hrest : rest.head? ≠ some q) :
    cutQuoted q acc (body ++ rest) = some (x, rest) := by
  induction acc, body using cutQuoted.induct q with
  | case1 acc c d body hc hd ih =>
    simp only [cutQuoted, hc, hd, if_true] at h
    simp only [List.cons_append, cutQuoted, hc, hd, if_true]
    exact ih h
  | case2 acc c d body hc hd =>
    simp [cutQuoted, hc, hd] at h
  | case3 acc c d body hc ih =>
    simp only [cutQuoted, hc, Bool.false_eq_true, if_false] at h
    simp only [List.cons_append, cutQuoted, hc, Bool.false_eq_true, if_false]
    exact ih h
  | case4 acc c hc =>
    simp only [cutQuoted, hc, if_true, Option.some.injEq, Prod.mk.injEq, and_true] at h
    subst h
    cases rest with
    | nil => simp [cutQuoted, hc]
    | cons d rest =>
      have hd : (d == q) = false := by
        rw [beq_eq_false_iff_ne]
        intro hd
        exact hrest (by rw [hd]; rfl)
      simp [cutQuoted, hc, hd]
  | case5 acc c hc => simp [cutQuoted, hc] at h
  | case6 acc => simp [cutQuoted] at h

/-- A quoted literal cut off a text is not followed by its quote, and stays one without what
follows. -/
theorem cutQuoted_spec {q : Char} {acc s x rest : List Char}
    (h : cutQuoted q acc s = some (x, rest)) :
    ∃ body, s = body ++ rest ∧ x = body.reverse ++ acc ∧
      cutQuoted q acc body = some (x, []) ∧ rest.head? ≠ some q := by
  induction acc, s using cutQuoted.induct q with
  | case1 acc c d s hc hd ih =>
    simp only [cutQuoted, hc, hd, if_true] at h
    obtain ⟨body, rfl, rfl, hcut, hrest⟩ := ih h
    refine ⟨c :: d :: body, rfl, by simp, ?_, hrest⟩
    simpa only [cutQuoted, hc, hd, if_true] using hcut
  | case2 acc c d s hc hd =>
    simp only [cutQuoted, hc, hd, if_true, Bool.false_eq_true, if_false, Option.some.injEq,
      Prod.mk.injEq] at h
    obtain ⟨rfl, rfl⟩ := h
    refine ⟨[c], rfl, rfl, by simp [cutQuoted, hc], ?_⟩
    simpa using hd
  | case3 acc c d s hc ih =>
    simp only [cutQuoted, hc, Bool.false_eq_true, if_false] at h
    obtain ⟨body, hs, rfl, hcut, hrest⟩ := ih h
    cases body with
    | nil => simp [cutQuoted] at hcut
    | cons e body =>
      obtain ⟨rfl, rfl⟩ := List.cons.inj hs
      refine ⟨c :: d :: body, rfl, by simp, ?_, hrest⟩
      simpa only [cutQuoted, hc, Bool.false_eq_true, if_false] using hcut
  | case4 acc c hc =>
    simp only [cutQuoted, hc, if_true, Option.some.injEq, Prod.mk.injEq] at h
    obtain ⟨rfl, rfl⟩ := h
    exact ⟨[c], rfl, rfl, by simp [cutQuoted, hc], by simp⟩
  | case5 acc c hc => simp [cutQuoted, hc] at h
  | case6 acc => simp [cutQuoted] at h

/-- A comment ends with a slash. -/
theorem cutComment_last {acc s x rest : List Char} (h : cutComment acc s = some (x, rest)) :
    x.head? = some '/' := by
  induction acc, s using cutComment.induct with
  | case1 acc s =>
    simp only [cutComment, Option.some.injEq, Prod.mk.injEq] at h
    obtain ⟨rfl, -⟩ := h
    rfl
  | case2 acc c s hopen ih =>
    rw [cutComment.eq_2 _ _ _ hopen] at h
    exact ih h
  | case3 acc => simp [cutComment] at h

/-- A quoted literal ends with its quote. -/
theorem cutQuoted_last {q : Char} {acc s x rest : List Char}
    (h : cutQuoted q acc s = some (x, rest)) : x.head? = some q := by
  induction acc, s using cutQuoted.induct q with
  | case1 acc c d s hc hd ih =>
    simp only [cutQuoted, hc, hd, if_true] at h
    exact ih h
  | case2 acc c d s hc hd =>
    simp only [cutQuoted, hc, hd, if_true, Bool.false_eq_true, if_false, Option.some.injEq,
      Prod.mk.injEq] at h
    obtain ⟨rfl, -⟩ := h
    rw [List.head?_cons, beq_iff_eq.mp hc]
  | case3 acc c d s hc ih =>
    simp only [cutQuoted, hc, Bool.false_eq_true, if_false] at h
    exact ih h
  | case4 acc c hc =>
    simp only [cutQuoted, hc, if_true, Option.some.injEq, Prod.mk.injEq] at h
    obtain ⟨rfl, -⟩ := h
    rw [List.head?_cons, beq_iff_eq.mp hc]
  | case5 acc c hc => simp [cutQuoted, hc] at h
  | case6 acc => simp [cutQuoted] at h

/-- No white space goes on with a number. -/
theorem continuesNumber_of_blank {c : Char} (h : Text.isBlank c = true) :
    continuesNumber c = false :=
  Text.forall_blank (P := fun c => continuesNumber c = false) (by decide +kernel) h

/-- No white space goes on with a word. -/
theorem continuesWord_of_blank {c : Char} (h : Text.isBlank c = true) : continuesWord c = false :=
  Text.forall_blank (P := fun c => continuesWord c = false) (by decide +kernel) h

/-- A token ends with a character that is not white space. -/
theorem IsToken.last_nonblank {t : Token} (ht : t.IsToken) :
    ∀ c ∈ t.text.getLast?, Text.isBlank c = false := by
  obtain ⟨first, tail, htext, hfirst⟩ := ht.exists_head
  intro c hc
  -- White space is neither the first character nor one that goes on with a token of this kind.
  have hmem : ∀ p : Char → Bool, (∀ d, Text.isBlank d = true → p d = false) →
      (∀ d ∈ tail, p d = true) → Text.isBlank c = false := by
    intro p hp htail
    by_contra hnot
    have hblank : Text.isBlank c = true := by simpa using hnot
    rw [htext] at hc
    rcases List.mem_cons.mp (List.mem_of_getLast? hc) with rfl | hmem
    · simp [hfirst] at hblank
    · exact absurd (htail c hmem) (by simp [hp c hblank])
  cases ht with
  | lineComment hline htrim =>
    rw [text, ← htrim] at hc
    exact Text.trimEnd_last hc
  | blockComment hcut =>
    have hlast := cutComment_last hcut
    rw [List.head?_reverse] at hlast
    obtain rfl : '/' = c := Option.some.inj (hlast.symm.trans hc)
    decide
  | quoted hq hcut =>
    have hlast := cutQuoted_last hcut
    rw [List.head?_reverse] at hlast
    obtain rfl := Option.some.inj (hlast.symm.trans hc)
    exact isBlank_quotes _ hq
  | number _ htail =>
    obtain ⟨rfl, rfl⟩ := List.cons.inj htext
    exact hmem continuesNumber (fun d => continuesNumber_of_blank) htail
  | word _ _ htail =>
    obtain ⟨rfl, rfl⟩ := List.cons.inj htext
    exact hmem continuesWord (fun d => continuesWord_of_blank) htail
  | punct hpunct =>
    obtain rfl := Option.some.inj hc
    exact isBlank_punctuation _ hpunct
  | operator _ _ _ _ _ htail =>
    obtain ⟨rfl, rfl⟩ := List.cons.inj htext
    refine hmem operatorTail.contains ?_ fun d hd => List.contains_iff_mem.mpr (htail d hd)
    intro d hd
    simpa using Text.not_mem_of_blank hd (by decide : operatorTail.all (!Text.isBlank ·) = true)

/-! ## One token -/

/-- What is taken of a text by a test on characters stays taken, before a character that fails. -/
theorem takeWhile_append_of_stop {p : Char → Bool} {tail rest : List Char}
    (htail : ∀ d ∈ tail, p d = true) (hrest : ∀ d ∈ rest.head?, p d = false) :
    (tail ++ rest).takeWhile p = tail ∧ (tail ++ rest).dropWhile p = rest := by
  rw [List.takeWhile_append_of_pos htail, List.dropWhile_append_of_pos htail]
  cases rest with
  | nil => simp
  | cons d rest =>
    have hd : p d = false := hrest d rfl
    simp [hd]

/-- An operator opens no comment, unless it is the first character of one and the second
follows. -/
theorem not_opens_comment {c first second : Char} {tail rest : List Char}
    (htail : ∀ d ∈ tail, d ∈ operatorTail) (hsecond : second ∉ operatorTail)
    (hrest : c :: tail = [first] → rest.head? ≠ some second) :
    ¬(c == first && (tail ++ rest).head? == some second) = true := by
  intro h
  obtain ⟨hfirst, hhead⟩ := Bool.and_eq_true_iff.mp h
  rw [beq_iff_eq] at hfirst hhead
  cases tail with
  | nil => exact hrest (by rw [hfirst]) hhead
  | cons d tail =>
    obtain rfl : d = second := Option.some.inj hhead
    exact hsecond (htail d List.mem_cons_self)

/-- And if it is just that, then a comment is open. -/
theorem opens_comment {c first second : Char} {s : List Char}
    (htext : c :: s.takeWhile operatorTail.contains = [first])
    (hhead : (s.dropWhile operatorTail.contains).head? = some second) :
    (c == first && s.head? == some second) = true := by
  obtain ⟨rfl, hnil⟩ := List.cons.inj htext
  have hs : s = s.dropWhile operatorTail.contains := by
    have hsplit := List.takeWhile_append_dropWhile (p := operatorTail.contains) (l := s)
    rw [hnil] at hsplit
    exact hsplit.symm
  rw [hs, hhead]
  simp

/-- A comment to the end of a line goes on up to the next line feed. -/
theorem line_append {tail : List Char} (hline : '\n' ∉ tail) (rest : List Char) :
    ('-' :: ('-' :: tail ++ rest)).takeWhile (· != '\n')
        = '-' :: '-' :: tail ++ rest.takeWhile (· != '\n') ∧
      ('-' :: tail ++ rest).dropWhile (· != '\n') = rest.dropWhile (· != '\n') := by
  have hpos : ∀ d ∈ '-' :: '-' :: tail, (d != '\n') = true := by
    intro d hd
    rw [bne_iff_ne]
    rintro rfl
    simp [hline] at hd
  constructor
  · exact List.takeWhile_append_of_pos hpos
  · exact List.dropWhile_append_of_pos fun d hd => hpos d (List.mem_cons_of_mem _ hd)

/-- A token with something behind it that stops it is the token that a text starts with. What is
left behind a comment to the end of a line starts with the line feed. -/
theorem next_of_token {t : Token} (ht : t.IsToken) {rest : List Char} (hstops : t.Stops rest)
    {c : Char} {tail : List Char} (htext : t.text = c :: tail) :
    ∃ g rest', next c (tail ++ rest) = .ok (some t, rest') ∧ rest = g ++ rest' ∧
      Text.allBlank g = true := by
  obtain ⟨c', tail', htext', hblank⟩ := ht.exists_head
  obtain ⟨rfl, rfl⟩ := List.cons.inj (htext'.symm.trans htext)
  -- Each kind of token passes its own test, and fails those that are made before it.
  unfold next
  rw [if_neg (by simp [hblank])]
  cases ht with
  | @lineComment tail hline htrim =>
    obtain ⟨rfl, rfl⟩ := List.cons.inj htext
    obtain ⟨htake, hdrop⟩ := line_append hline rest
    refine ⟨rest.takeWhile (· != '\n'), rest.dropWhile (· != '\n'), ?_,
      List.takeWhile_append_dropWhile.symm, Text.allBlank_iff.mpr hstops⟩
    rw [if_pos (by simp)]
    dsimp only
    rw [htake, hdrop, Text.trimEnd_append_blank (Text.allBlank_iff.mpr hstops), htrim]
  | @blockComment body hcut =>
    obtain ⟨rfl, rfl⟩ := List.cons.inj htext
    refine ⟨[], rest, ?_, rfl, rfl⟩
    rw [if_neg (by simp), if_pos (by simp)]
    simp only [List.cons_append, List.tail_cons, cutComment_append hcut rest, List.reverse_reverse]
  | @quoted q body hq hcut =>
    obtain ⟨rfl, rfl⟩ := List.cons.inj htext
    have hdigit := isAsciiDigit_quotes q hq
    have hrest : rest.head? ≠ some q := by
      have hq' := hstops q rfl
      simpa [hdigit] using hq'
    have hsign : ∀ c ∈ quotes, (c == '-') = false ∧ (c == '/') = false :=
      List.all_iff_forall_prop.mp (by decide)
    refine ⟨[], rest, ?_, rfl, rfl⟩
    rw [if_neg (by simp [hsign q hq]), if_neg (by simp [hsign q hq]),
      if_pos (List.contains_iff_mem.mpr hq)]
    simp only [cutQuoted_append hcut hrest, List.reverse_reverse]
  | @number d tail hd htail =>
    obtain ⟨rfl, rfl⟩ := List.cons.inj htext
    have hnot := not_mem_of_isAsciiDigit hd
    simp only [List.mem_cons, List.not_mem_nil, or_false, not_or] at hnot
    have hrest : ∀ e ∈ rest.head?, continuesNumber e = false := by
      have hstop := hstops d rfl
      rwa [if_pos hd] at hstop
    obtain ⟨htake, hdrop⟩ := takeWhile_append_of_stop htail hrest
    refine ⟨[], rest, ?_, rfl, rfl⟩
    rw [if_neg (by simp [hnot]), if_neg (by simp [hnot]), if_neg (by simp [quotes, hnot]),
      if_pos hd, htake, hdrop]
  | @word d tail hdigit hd htail =>
    obtain ⟨rfl, rfl⟩ := List.cons.inj htext
    have hnot := not_mem_of_startsWord hd
    simp only [List.mem_cons, List.not_mem_nil, or_false, not_or] at hnot
    obtain ⟨htake, hdrop⟩ := takeWhile_append_of_stop htail hstops
    refine ⟨[], rest, ?_, rfl, rfl⟩
    rw [if_neg (by simp [hnot]), if_neg (by simp [hnot]), if_neg (by simp [quotes, hnot]),
      if_neg (by simp [hdigit]), if_pos hd, htake, hdrop]
  | @punct d hd =>
    obtain ⟨rfl, rfl⟩ := List.cons.inj htext
    have hall : ∀ c ∈ punctuation, (c == '-') = false ∧ (c == '/') = false ∧
        c ∉ quotes ∧ Text.isAsciiDigit c = false ∧ startsWord c = false :=
      List.all_iff_forall_prop.mp (by decide +kernel)
    obtain ⟨hdash, hslash, hquote, hdigit, hword⟩ := hall d hd
    refine ⟨[], rest, ?_, rfl, rfl⟩
    rw [if_neg (by simp [hdash]), if_neg (by simp [hslash]), if_neg (by simp [hquote]),
      if_neg (by simp [hdigit]), if_neg (by simp [hword]), if_pos (List.contains_iff_mem.mpr hd)]
    rfl
  | @operator d tail hblank hquote hdigit hword hpunct htail =>
    obtain ⟨rfl, rfl⟩ := List.cons.inj htext
    obtain ⟨hrest, hdash, hslash⟩ := hstops
    have htail' : ∀ e ∈ tail, operatorTail.contains e = true :=
      fun e he => List.contains_iff_mem.mpr (htail e he)
    obtain ⟨htake, hdrop⟩ := takeWhile_append_of_stop (p := operatorTail.contains) htail'
      fun e he => by simpa using hrest e he
    refine ⟨[], rest, ?_, rfl, rfl⟩
    rw [if_neg (not_opens_comment htail (by decide) hdash),
      if_neg (not_opens_comment htail (by decide) hslash), if_neg (by simpa using hquote),
      if_neg (by simp [hdigit]), if_neg (by simp [hword]), if_neg (by simpa using hpunct), htake,
      hdrop]

/-- What a test on characters takes of a text stops before what is left. -/
theorem head?_dropWhile_stop (p : Char → Bool) (s : List Char) :
    ∀ d ∈ (s.dropWhile p).head?, p d = false := by
  intro d hd
  have h := List.head?_dropWhile_not p s
  rw [hd] at h
  exact h

/-- A text up to the end of its first line: the line up to its last character that is not white
space, then white space, then what is left, which starts a new line. -/
theorem exists_line (s : List Char) :
    ∃ g, Text.allBlank g = true ∧
      s = Text.trimEnd (s.takeWhile (· != '\n')) ++ (g ++ s.dropWhile (· != '\n')) ∧
      '\n' ∉ Text.trimEnd (s.takeWhile (· != '\n')) ∧
      ∀ d ∈ (g ++ s.dropWhile (· != '\n')).takeWhile (· != '\n'), Text.isBlank d = true := by
  obtain ⟨g, hg, hsplit⟩ := Text.exists_trimEnd (s.takeWhile (· != '\n'))
  have hmem : ∀ d ∈ Text.trimEnd (s.takeWhile (· != '\n')) ++ g, (d != '\n') = true := by
    intro d hd
    rw [← hsplit] at hd
    exact List.mem_takeWhile_imp (p := (· != '\n')) hd
  -- What is left starts with the line feed, so the line takes none of it.
  have hnone : (s.dropWhile (· != '\n')).takeWhile (· != '\n') = [] := by
    have hstop := head?_dropWhile_stop (· != '\n') s
    cases hs : s.dropWhile (· != '\n') with
    | nil => rfl
    | cons d s' =>
      rw [hs] at hstop
      simpa using hstop d rfl
  refine ⟨g, hg, ?_, ?_, ?_⟩
  · rw [← List.append_assoc, ← hsplit, List.takeWhile_append_dropWhile]
  · intro hd
    simpa using hmem _ (List.mem_append_left _ hd)
  · rw [List.takeWhile_append_of_pos fun d hd => hmem d (List.mem_append_right _ hd), hnone,
      List.append_nil]
    exact Text.allBlank_iff.mp hg

/-- White space is skipped. -/
theorem next_blank {c : Char} {s : List Char} (h : Text.isBlank c = true) :
    next c s = .ok (none, s) := if_pos h

/-- Only white space is no token. -/
theorem next_none {c : Char} {s rest : List Char} (h : next c s = .ok (none, rest)) :
    Text.isBlank c = true ∧ rest = s := by
  unfold next at h
  split_ifs at h with hblank hline hblock hquote hdigit hword hpunct
  · simp only [Except.ok.injEq, Prod.mk.injEq, true_and] at h
    exact ⟨hblank, h.symm⟩
  · simp at h
  · cases hcut : cutComment ['*', '/'] s.tail <;> simp [hcut] at h
  · cases hcut : cutQuoted c [c] s <;> simp [hcut] at h
  all_goals simp at h

/-- The token that a text starts with is one, and what is left behind it stops it. What is skipped
between the two is white space at the end of a comment. -/
theorem next_some {c : Char} {s rest : List Char} {t : Token}
    (h : next c s = .ok (some t, rest)) :
    t.IsToken ∧ ∃ g, Text.allBlank g = true ∧ c :: s = t.text ++ (g ++ rest) ∧
      t.Stops (g ++ rest) := by
  unfold next at h
  split_ifs at h with hblank hline hblock hquote hdigit hword hpunct
  · simp at h
  · -- A comment to the end of the line.
    simp only [Except.ok.injEq, Prod.mk.injEq, Option.some.injEq] at h
    obtain ⟨rfl, rfl⟩ := h
    simp only [Bool.and_eq_true, beq_iff_eq] at hline
    obtain ⟨rfl, hhead⟩ := hline
    obtain ⟨s, rfl⟩ := List.head?_eq_some_iff.mp hhead
    have htake : ('-' :: '-' :: s).takeWhile (· != '\n')
        = '-' :: '-' :: s.takeWhile (· != '\n') := by simp
    have hdrop : ('-' :: s).dropWhile (· != '\n') = s.dropWhile (· != '\n') := by simp
    rw [htake, hdrop, Text.trimEnd_cons (by decide), Text.trimEnd_cons (by decide)]
    obtain ⟨g, hg, hsplit, hbody, hstops⟩ := exists_line s
    refine ⟨.lineComment hbody ?_, g, hg, ?_, hstops⟩
    · rw [Text.trimEnd_cons (by decide), Text.trimEnd_cons (by decide),
        Text.trimEnd_eq_self fun d hd => Text.trimEnd_last hd]
    · rw [text, List.cons_append, List.cons_append, ← hsplit]
  · -- A comment that may go on over lines.
    simp only [Bool.and_eq_true, beq_iff_eq] at hblock
    obtain ⟨rfl, hhead⟩ := hblock
    obtain ⟨s, rfl⟩ := List.head?_eq_some_iff.mp hhead
    cases hcut : cutComment ['*', '/'] s with
    | none => simp [hcut] at h
    | some cut =>
      obtain ⟨x, rest'⟩ := cut
      simp only [List.tail_cons, hcut, Except.ok.injEq, Prod.mk.injEq, Option.some.injEq] at h
      obtain ⟨rfl, rfl⟩ := h
      obtain ⟨body, rfl, rfl, hbody⟩ := cutComment_spec hcut
      have hx : (body.reverse ++ ['*', '/']).reverse = '/' :: '*' :: body := by simp
      rw [hx]
      refine ⟨.blockComment ?_, [], rfl, rfl, trivial⟩
      rw [hbody, ← hx, List.reverse_reverse]
  · -- A quoted literal.
    cases hcut : cutQuoted c [c] s with
    | none => simp [hcut] at h
    | some cut =>
      obtain ⟨x, rest'⟩ := cut
      simp only [hcut, Except.ok.injEq, Prod.mk.injEq, Option.some.injEq] at h
      obtain ⟨rfl, rfl⟩ := h
      obtain ⟨body, rfl, rfl, hbody, hrest⟩ := cutQuoted_spec hcut
      have hx : (body.reverse ++ [c]).reverse = c :: body := by simp
      rw [hx]
      have hq : c ∈ quotes := List.contains_iff_mem.mp hquote
      refine ⟨.quoted hq ?_, [], rfl, rfl, ?_⟩
      · rw [hbody, ← hx, List.reverse_reverse]
      · intro d hd
        obtain rfl : c = d := Option.some.inj hd
        simpa [isAsciiDigit_quotes c hq] using hrest
  · -- A number.
    simp only [Except.ok.injEq, Prod.mk.injEq, Option.some.injEq] at h
    obtain ⟨rfl, rfl⟩ := h
    refine ⟨.number hdigit fun d hd => List.mem_takeWhile_imp hd, [], rfl, ?_, ?_⟩
    · simp [text]
    · intro d hd
      obtain rfl : c = d := Option.some.inj hd
      rw [if_pos hdigit]
      exact head?_dropWhile_stop _ _
  · -- A word.
    simp only [Except.ok.injEq, Prod.mk.injEq, Option.some.injEq] at h
    obtain ⟨rfl, rfl⟩ := h
    refine ⟨.word (by simpa using hdigit) hword fun d hd => List.mem_takeWhile_imp hd, [], rfl, ?_,
      head?_dropWhile_stop _ _⟩
    simp [text]
  · -- Punctuation.
    simp only [Except.ok.injEq, Prod.mk.injEq, Option.some.injEq] at h
    obtain ⟨rfl, rfl⟩ := h
    exact ⟨.punct (List.contains_iff_mem.mp hpunct), [], rfl, rfl, trivial⟩
  · -- An operator.
    simp only [Except.ok.injEq, Prod.mk.injEq, Option.some.injEq] at h
    obtain ⟨rfl, rfl⟩ := h
    refine ⟨.operator (by simpa using hblank) (by simpa using hquote) (by simpa using hdigit)
      (by simpa using hword) (by simpa using hpunct) ?_, [], rfl, ?_, ?_, ?_, ?_⟩
    · intro d hd
      exact List.contains_iff_mem.mp (List.mem_takeWhile_imp hd)
    · simp [text]
    · intro d hd
      have hstop := head?_dropWhile_stop _ _ d hd
      simpa using hstop
    · intro htext hhead
      exact hline (opens_comment htext hhead)
    · intro htext hhead
      exact hblock (opens_comment htext hhead)

/-! ## All tokens -/

/-- White space in front of a text makes no difference to its tokens. -/
theorem reads_blank_cons {c : Char} {s : List Char} {ts : List Token}
    (hc : Text.isBlank c = true) : Reads ts (c :: s) ↔ Reads ts s := by
  refine ⟨?_, .blank hc⟩
  intro h
  generalize hs : c :: s = s' at h
  cases h with
  | nil => simp at hs
  | blank hc' h =>
    obtain ⟨rfl, rfl⟩ := List.cons.inj hs
    exact h
  | token ht =>
    obtain ⟨d, tail, htext, hblank⟩ := ht.exists_head
    rw [htext] at hs
    obtain ⟨rfl, -⟩ := List.cons.inj hs
    simp [hblank] at hc

/-- Nor does any amount of it. -/
theorem reads_blank_append {g s : List Char} {ts : List Token} (hg : Text.allBlank g = true) :
    Reads ts (g ++ s) ↔ Reads ts s := by
  rw [Text.allBlank_iff] at hg
  induction g with
  | nil => exact Iff.rfl
  | cons c g ih =>
    rw [List.cons_append, reads_blank_cons (hg c List.mem_cons_self),
      ih fun d hd => hg d (List.mem_cons_of_mem _ hd)]

/-- White space has no tokens. -/
theorem reads_nil_of_blank {g : List Char} (hg : Text.allBlank g = true) : Reads [] g := by
  have h : Reads [] (g ++ []) := (reads_blank_append hg).mpr .nil
  rwa [List.append_nil] at h

/-- A token at the start of a text is its first token exactly if what follows stops it. -/
theorem reads_cons_iff {t : Token} (ht : t.IsToken) {rest : List Char} {ts : List Token} :
    Reads (t :: ts) (t.text ++ rest) ↔ t.Stops rest ∧ Reads ts rest := by
  refine ⟨?_, fun h => .token ht h.1 h.2⟩
  intro h
  obtain ⟨c, tail, htext, hblank⟩ := ht.exists_head
  generalize hts : t :: ts = ts' at h
  generalize hs : t.text ++ rest = s at h
  cases h with
  | nil => simp at hts
  | blank hc =>
    rw [htext] at hs
    obtain ⟨rfl, -⟩ := List.cons.inj hs
    simp [hblank] at hc
  | token _ hstops h =>
    obtain ⟨rfl, rfl⟩ := List.cons.inj hts
    obtain rfl := List.append_cancel_left hs
    exact ⟨hstops, h⟩

/-- The empty text has no tokens. -/
theorem reads_nil_right {ts : List Token} : Reads ts [] ↔ ts = [] := by
  constructor
  · intro h
    generalize hs : ([] : List Char) = s at h
    cases h with
    | nil => rfl
    | blank => simp at hs
    | token ht =>
      obtain ⟨d, tail, htext, -⟩ := ht.exists_head
      simp [htext] at hs
  · rintro rfl
    exact .nil

/-- If a text starts with a token, then reading goes on behind the token that its first character
starts, and the white space skipped there makes no difference. -/
theorem exists_next_of_reads {c : Char} {s : List Char} {ts : List Token}
    (hc : Text.isBlank c = false) (h : Reads ts (c :: s)) :
    ∃ t rest ts', next c s = .ok (some t, rest) ∧ ts = t :: ts' ∧ Reads ts' rest := by
  generalize hs : c :: s = s' at h
  cases h with
  | nil => simp at hs
  | blank hc' =>
    obtain ⟨rfl, -⟩ := List.cons.inj hs
    simp [hc] at hc'
  | @token t rest ts ht hstops h =>
    obtain ⟨d, tail, htext, -⟩ := ht.exists_head
    obtain ⟨g, rest', hnext, rfl, hg⟩ := next_of_token ht hstops htext
    rw [htext, List.cons_append] at hs
    obtain ⟨rfl, rfl⟩ := List.cons.inj hs
    exact ⟨t, rest', ts, hnext, rfl, (reads_blank_append hg).mp h⟩

/-- Reading with enough fuel finds the tokens that the text consists of, and no others. -/
theorem read_iff {n : ℕ} {acc : List Token} {s : List Char} {r : List Token} (hn : s.length ≤ n) :
    read n acc s = .ok r ↔ ∃ ts, Reads ts s ∧ r = ts.reverse ++ acc := by
  have hnil : ∀ {acc : List Token}, acc = r ↔ ∃ ts, Reads ts [] ∧ r = ts.reverse ++ acc := by
    intro acc
    simp only [reads_nil_right, exists_eq_left, List.reverse_nil, List.nil_append]
    exact eq_comm
  induction n generalizing acc s with
  | zero =>
    obtain rfl : s = [] := List.length_eq_zero_iff.mp (Nat.le_zero.mp hn)
    rw [read, Except.ok.injEq]
    exact hnil
  | succ n ih =>
    cases s with
    | nil =>
      rw [read, Except.ok.injEq]
      exact hnil
    | cons c s =>
      have hlength : s.length ≤ n := Nat.le_of_succ_le_succ hn
      cases hnext : next c s with
      | error f =>
        simp only [read, hnext, reduceCtorEq, false_iff]
        rintro ⟨ts, hts, -⟩
        have hc : Text.isBlank c = false := by
          by_contra hblank
          simp [next_blank (by simpa using hblank)] at hnext
        obtain ⟨t, rest, -, hok, -, -⟩ := exists_next_of_reads hc hts
        simp [hok] at hnext
      | ok taken =>
        obtain ⟨_ | t, rest⟩ := taken
        · obtain ⟨hc, rfl⟩ := next_none hnext
          simp only [read, hnext, ih hlength, reads_blank_cons hc]
        · obtain ⟨ht, g, hg, hs, hstops⟩ := next_some hnext
          obtain ⟨d, tail, htext, hc⟩ := ht.exists_head
          have hrest : rest.length ≤ n := by
            have hlen := congrArg List.length hs
            rw [htext] at hlen
            simp only [List.length_cons, List.length_append] at hlen
            omega
          obtain ⟨rfl, -⟩ : c = d ∧ _ := List.cons.inj (hs.trans (by rw [htext]; rfl))
          simp only [read, hnext, ih hrest]
          constructor
          · rintro ⟨ts, hts, rfl⟩
            refine ⟨t :: ts, ?_, by simp⟩
            rw [hs]
            exact .token ht hstops ((reads_blank_append hg).mpr hts)
          · rintro ⟨ts, hts, rfl⟩
            obtain ⟨t', rest', ts', hnext', rfl, hts'⟩ := exists_next_of_reads hc hts
            rw [hnext] at hnext'
            simp only [Except.ok.injEq, Prod.mk.injEq, Option.some.injEq] at hnext'
            obtain ⟨rfl, rfl⟩ := hnext'
            exact ⟨ts', hts', by simp⟩

/-- Reading a text finds the tokens that it consists of, and no others. -/
theorem ofText_iff {s : List Char} {ts : List Token} : ofText s = .ok ts ↔ Reads ts s := by
  have hread := @read_iff s.length [] s
  have hunfold : ofText s = (read s.length [] s).map List.reverse := by
    unfold ofText
    cases read s.length [] s <;> rfl
  rw [hunfold]
  constructor
  · intro h
    cases hr : read s.length [] s with
    | error f => simp [hr, Except.map] at h
    | ok r =>
      obtain ⟨ts', hts', rfl⟩ := (hread Nat.le.refl).mp hr
      simp only [hr, Except.map, List.append_nil, List.reverse_reverse, Except.ok.injEq] at h
      exact h ▸ hts'
  · intro h
    rw [(hread Nat.le.refl).mpr ⟨ts, h, rfl⟩]
    simp [Except.map]

end CodeTidy.Sql.Token
