import CodeTidy.Proofs.Text.Letter
import CodeTidy.Proofs.Whitespace.Scanning
import Mathlib.Data.List.Find

/-!
# A scan of a line without the white space around it

The scan of a line does not depend on the white space at the ends of the line. In front of the line
it takes white space one character at a time and stays in its state, and no mark that follows asks
for more than white space in front of it. Behind the line it may take white space together with the
last character of the line, behind a backslash for one, but it never ends in another state for it.
-/

namespace CodeTidy.Whitespace

/-- A mark has some characters, none of them white space. -/
def IsMark (m : List Char) : Prop := m ≠ [] ∧ ∀ c ∈ m, Text.isBlank c = false

instance (m : List Char) : Decidable (IsMark m) :=
  decidable_of_iff (m ≠ [] ∧ m.all (!Text.isBlank ·) = true) (by simp [IsMark])

/-- All that a lexicon looks for are marks. -/
structure Lexicon.Legible (lex : Lexicon) : Prop where
  lineComments : ∀ m ∈ lex.lineComments, IsMark m
  openings : ∀ d ∈ lex.delimiters, IsMark d.opening
  closings : ∀ d ∈ lex.delimiters, IsMark d.closing

/-- The states that a scan may be in. -/
def Carry.Within (lex : Lexicon) : Carry → Prop
  | .literal d => d ∈ lex.delimiters
  | _ => True

/-- The scan is within the lexicon if it is in no literal. -/
theorem Carry.within_of_not_literal (lex : Lexicon) {state : Carry}
    (h : state.isLiteral = false) : state.Within lex := by
  cases state with
  | literal d => exact Bool.noConfusion h
  | code | blockComment => trivial

/-- The lexicons of the languages are legible. -/
theorem legible_of_language {language : String} {lex : Lexicon}
    (h : Lexicon.ofLanguage? language = some lex) : lex.Legible := by
  have htable : ∀ entry ∈ Lexicon.table,
      (∀ m ∈ entry.2.lineComments, IsMark m) ∧
        ∀ d ∈ entry.2.delimiters, IsMark d.opening ∧ IsMark d.closing := by
    decide
  unfold Lexicon.ofLanguage? at h
  obtain ⟨entry, hentry, rfl⟩ := Option.map_eq_some_iff.mp h
  obtain ⟨hcomments, hdelimiters⟩ := htable entry (List.mem_of_find?_eq_some hentry)
  exact ⟨hcomments, fun d hd => (hdelimiters d hd).1, fun d hd => (hdelimiters d hd).2⟩

/-! ## Marks and white space -/

/-- The mark of a block comment is one. -/
theorem isMark_opening : IsMark "/*".toList := by decide

/-- So is the mark that ends it. -/
theorem isMark_closing : IsMark "*/".toList := by decide

/-- No mark starts with white space. -/
theorem IsMark.not_isPrefixOf {m : List Char} (h : IsMark m) {c : Char}
    (hc : Text.isBlank c = true) (rest : List Char) : m.isPrefixOf (c :: rest) = false := by
  obtain ⟨hne, hsolid⟩ := h
  cases m with
  | nil => exact absurd rfl hne
  | cons d m =>
    have hd : d ≠ c := by
      rintro rfl
      rw [hsolid d List.mem_cons_self] at hc
      exact Bool.noConfusion hc
    rw [List.isPrefixOf_cons_cons, beq_false_of_ne hd, Bool.false_and]

/-- A mark does not reach into white space. -/
theorem IsMark.isPrefixOf_append_blank {m : List Char} (h : IsMark m) (s : List Char)
    {g : List Char} (hg : Text.allBlank g = true) :
    m.isPrefixOf (s ++ g) = m.isPrefixOf s := by
  rw [Bool.eq_iff_iff, List.isPrefixOf_iff_prefix, List.isPrefixOf_iff_prefix]
  refine ⟨?_, fun hprefix => hprefix.trans (List.prefix_append s g)⟩
  intro hprefix
  rcases List.prefix_or_prefix_of_prefix hprefix (List.prefix_append s g) with hs | ⟨t, rfl⟩
  · exact hs
  · -- What goes beyond the text is part of the mark and of the white space.
    have ht : t <+: g := (List.prefix_append_right_inj s).mp hprefix
    cases t with
    | nil => exact (List.append_nil s).symm ▸ List.prefix_rfl
    | cons c t =>
      have hc := h.2 c (List.mem_append_right s List.mem_cons_self)
      rw [Text.allBlank_iff.mp hg c (ht.subset List.mem_cons_self)] at hc
      exact Bool.noConfusion hc

/-- White space is no letter and no number. -/
theorem isAlphanumeric_of_blank {c : Char} (h : Text.isBlank c = true) :
    Text.isAlphanumeric c = false :=
  Text.forall_blank (P := fun c => Text.isAlphanumeric c = false) (by decide +kernel) h

/-- White space in front of a mark is like the start of a line to a literal, -/
theorem opensAt_of_blank {before : Option Char} (h : before.all Text.isBlank = true)
    (s : List Char) (d : Delimiter) : d.opensAt before s = d.opensAt none s := by
  cases before with
  | none => rfl
  | some b =>
    have hb : Text.isBlank b = true := h
    have hscore : (b == '_') = false := by
      refine beq_false_of_ne ?_
      rintro rfl
      exact absurd hb (by decide)
    have halnum : Delimiter.opensAt.isAlphanumeric b = false := isAlphanumeric_of_blank hb
    unfold Delimiter.opensAt
    rw [Option.any_some, Option.any_none, halnum, hscore, Bool.or_false]

/-- and to a comment. -/
theorem commentAt_of_blank {before : Option Char} (h : before.all Text.isBlank = true)
    (s : List Char) : commentAt before s = commentAt none s := by
  funext mark
  unfold commentAt
  rw [h, Option.all_none]

/-! ## One step of the scan -/

variable {lex : Lexicon}

/-- The scan takes white space one character at a time and stays in its state. -/
theorem move_at_blank (h : lex.Legible) {state : Carry} (hstate : state.Within lex) {c : Char}
    (hc : Text.isBlank c = true) (before : Option Char) (rest : List Char) :
    move lex state before c rest = .take 1 0 state := by
  have hnot : ∀ d, Text.isBlank d = false → (c == d) = false := by
    intro d hd
    refine beq_false_of_ne ?_
    rintro rfl
    rw [hc] at hd
    exact Bool.noConfusion hd
  unfold move
  dsimp only
  cases state with
  | blockComment =>
    dsimp only
    rw [isMark_closing.not_isPrefixOf hc, if_neg Bool.false_ne_true]
  | literal d =>
    dsimp only
    rw [hnot '\\' (by decide), (h.closings d hstate).not_isPrefixOf hc, Bool.and_false,
      if_neg Bool.false_ne_true, if_neg Bool.false_ne_true]
  | code =>
    have hcomments : lex.lineComments.any (commentAt before (c :: rest)) = false := by
      rw [List.any_eq_false]
      intro m hm
      unfold commentAt
      rw [(h.lineComments m hm).not_isPrefixOf hc, Bool.false_and]
      exact Bool.false_ne_true
    have hdelimiters : lex.delimiters.find? (·.opensAt before (c :: rest)) = none := by
      rw [List.find?_eq_none]
      intro d hd
      unfold Delimiter.opensAt
      rw [(h.openings d hd).not_isPrefixOf hc, Bool.false_and]
      exact Bool.false_ne_true
    have hdelta : bracketDelta c = 0 := by
      unfold bracketDelta
      rw [hnot '(' (by decide), hnot '[' (by decide), hnot '\x7b' (by decide),
        hnot ')' (by decide), hnot ']' (by decide), hnot '\x7d' (by decide)]
      rfl
    dsimp only
    rw [hcomments, isMark_opening.not_isPrefixOf hc, hnot '\'' (by decide), hdelimiters,
      Bool.and_false, Bool.and_false, hdelta]
    rfl

/-- A quote takes at least itself. -/
theorem charLiteralLength_pos (s : List Char) (hs : s ≠ []) : 0 < charLiteralLength s := by
  have hlength := List.length_pos_iff.mpr hs
  unfold charLiteralLength
  split
  · split
    · exact Nat.succ_pos _
    · exact hlength
  · exact hlength
  · exact Nat.succ_pos 2
  · exact Nat.one_pos

/-- A step of the scan takes at least one character and stays within the lexicon. -/
theorem move_take (h : lex.Legible) {state next : Carry} (hstate : state.Within lex)
    {before : Option Char} {c : Char} {rest : List Char} {n : ℕ} {delta : ℤ}
    (hmove : move lex state before c rest = .take n delta next) : 0 < n ∧ next.Within lex := by
  unfold move at hmove
  dsimp only at hmove
  cases state with
  | blockComment =>
    dsimp only at hmove
    split_ifs at hmove <;> obtain ⟨rfl, -, rfl⟩ := Move.take.inj hmove
    · exact ⟨Nat.succ_pos 1, trivial⟩
    · exact ⟨Nat.one_pos, trivial⟩
  | literal d =>
    have hclosing := List.length_pos_iff.mpr (h.closings d hstate).1
    dsimp only at hmove
    split_ifs at hmove <;> obtain ⟨rfl, -, rfl⟩ := Move.take.inj hmove
    · exact ⟨Nat.succ_pos 1, hstate⟩
    · exact ⟨by omega, hstate⟩
    · exact ⟨hclosing, trivial⟩
    · exact ⟨Nat.one_pos, hstate⟩
  | code =>
    dsimp only at hmove
    split_ifs at hmove
    · obtain ⟨rfl, -, rfl⟩ := Move.take.inj hmove
      exact ⟨Nat.succ_pos 1, trivial⟩
    · obtain ⟨rfl, -, rfl⟩ := Move.take.inj hmove
      exact ⟨charLiteralLength_pos _ (List.cons_ne_nil c rest), trivial⟩
    · split at hmove
      · rename_i d hd
        have hmem := List.mem_of_find?_eq_some hd
        obtain ⟨rfl, -, rfl⟩ := Move.take.inj hmove
        exact ⟨List.length_pos_iff.mpr (h.openings d hmem).1, hmem⟩
      · obtain ⟨rfl, -, rfl⟩ := Move.take.inj hmove
        exact ⟨Nat.one_pos, trivial⟩

/-- White space in front is like the start of a line to the scan. -/
theorem move_behind_blank {before : Option Char} (h : before.all Text.isBlank = true)
    (state : Carry) (c : Char) (rest : List Char) :
    move lex state before c rest = move lex state none c rest := by
  unfold move
  simp only [commentAt_of_blank h, opensAt_of_blank h]

/-! ## White space behind a line -/

/-- Two lengths go equally far in a text of some length: they are the same place of the text, or
both are at its end or beyond. -/
def SameReach (length n m : ℕ) : Prop := n = m ∧ m ≤ length ∨ length ≤ m ∧ length ≤ n

/-- Two steps of the scan do the same in a text of some length, and go equally far. -/
def Move.Alike (length : ℕ) : Move → Move → Prop
  | .stop, .stop => True
  | .take n delta next, .take m delta' next' => SameReach length n m ∧ delta = delta' ∧ next = next'
  | _, _ => False

/-- A step does the same as itself. -/
theorem Move.alike_refl (length : ℕ) (m : Move) : m.Alike length m := by
  cases m with
  | stop => trivial
  | take n delta next => exact ⟨by unfold SameReach; omega, rfl, rfl⟩

/-- Without a backslash a literal is closed behind its one character, or there is none. -/
theorem charLiteralLength_plain (c : Char) {x : Char} (hx : x ≠ '\\') (r : List Char) :
    charLiteralLength (c :: x :: r) = if r.head? = some '\'' then 3 else 1 := by
  unfold charLiteralLength
  split
  · rename_i heq
    exact absurd (List.cons.inj (List.cons.inj heq).2).1 hx
  · rename_i heq
    exact absurd (List.cons.inj (List.cons.inj heq).2).1 hx
  · rename_i heq
    obtain rfl := (List.cons.inj (List.cons.inj heq).2).2
    rfl
  · rename_i hquote
    rw [if_neg]
    intro hhead
    obtain ⟨r', rfl⟩ := List.head?_eq_some_iff.mp hhead
    exact hquote c x r' rfl

/-- Behind a backslash and one more character a literal goes to the next quote, or to the end. -/
theorem charLiteralLength_escape (c d : Char) (r : List Char) :
    charLiteralLength (c :: '\\' :: d :: r) =
      match r.findIdx? (· == '\'') with
      | some n => n + 4
      | none => r.length + 3 := rfl

/-- White space behind a text makes no difference to a literal of one character. -/
theorem charLiteralLength_append_blank (c : Char) (rest : List Char) {g : List Char}
    (hg : Text.allBlank g = true) :
    SameReach (c :: rest).length (charLiteralLength (c :: (rest ++ g)))
      (charLiteralLength (c :: rest)) := by
  have hgaps := Text.allBlank_iff.mp hg
  have hquote : ∀ d ∈ g, d ≠ '\'' := by
    rintro d hd rfl
    exact absurd (hgaps _ hd) (by decide)
  have hslash : ∀ d ∈ g, d ≠ '\\' := by
    rintro d hd rfl
    exact absurd (hgaps _ hd) (by decide)
  have hhead : g.head? ≠ some '\'' := fun h => hquote _ (List.mem_of_mem_head? h) rfl
  have hnone : ∀ {g' : List Char}, (∀ d ∈ g', d ≠ '\'') → g'.findIdx? (· == '\'') = none :=
    fun h => List.findIdx?_eq_none_iff.mpr fun d hd => beq_false_of_ne (h d hd)
  cases rest with
  | nil =>
    -- White space behind the quote makes no literal.
    cases g with
    | nil => exact .inl ⟨rfl, Nat.le_refl 1⟩
    | cons b g =>
      rw [List.forall_mem_cons] at hquote hslash
      have hnext : g.head? ≠ some '\'' := fun h => hquote.2 _ (List.mem_of_mem_head? h) rfl
      rw [List.nil_append, charLiteralLength_plain c hslash.1, if_neg hnext]
      exact .inl ⟨rfl, Nat.le_refl 1⟩
  | cons x r =>
    by_cases hx : x = '\\'
    · subst hx
      cases r with
      | nil =>
        refine .inr ⟨Nat.le_refl 2, ?_⟩
        cases g with
        | nil => exact Nat.le_refl 2
        | cons b g =>
          rw [List.forall_mem_cons] at hquote
          rw [List.cons_append, List.nil_append, charLiteralLength_escape, hnone hquote.2]
          exact Nat.le_add_left 2 (g.length + 1)
      | cons y r =>
        rw [List.cons_append, List.cons_append, charLiteralLength_escape, charLiteralLength_escape,
          List.findIdx?_append, hnone hquote, Option.map_none, Option.or_none]
        cases hfind : r.findIdx? (· == '\'') with
        | none =>
          refine .inr ⟨Nat.le_refl _, ?_⟩
          rw [List.length_append]
          exact Nat.add_le_add_right (Nat.le_add_right _ _) 3
        | some n =>
          refine .inl ⟨rfl, ?_⟩
          obtain ⟨hn, -⟩ := List.findIdx?_eq_some_iff_getElem.mp hfind
          simp only [List.length_cons]
          omega
    · rw [List.cons_append, charLiteralLength_plain c hx, charLiteralLength_plain c hx]
      cases r with
      | nil =>
        rw [List.nil_append, if_neg hhead]
        exact .inl ⟨rfl, Nat.succ_le_succ (Nat.zero_le 1)⟩
      | cons z r =>
        refine .inl ⟨rfl, ?_⟩
        simp only [List.length_cons]
        split_ifs <;> omega

/-- White space behind a text makes no difference to a step of the scan. -/
theorem move_append_blank (h : lex.Legible) {state : Carry} (hstate : state.Within lex)
    (before : Option Char) (c : Char) (rest : List Char) {g : List Char}
    (hg : Text.allBlank g = true) :
    (move lex state before c (rest ++ g)).Alike (c :: rest).length
      (move lex state before c rest) := by
  have hmark : ∀ {m : List Char}, IsMark m →
      m.isPrefixOf (c :: (rest ++ g)) = m.isPrefixOf (c :: rest) :=
    fun hm => hm.isPrefixOf_append_blank (c :: rest) hg
  unfold move
  dsimp only
  cases state with
  | blockComment =>
    dsimp only
    rw [hmark isMark_closing]
    exact Move.alike_refl _ _
  | literal d =>
    have hclosing := h.closings d hstate
    dsimp only
    rw [hmark hclosing]
    by_cases hclose : d.closing.isPrefixOf (c :: rest) = true
    · -- The mark is within the text, so a second one is looked for in front of the white space.
      have hlength := (List.isPrefixOf_iff_prefix.mp hclose).length_le
      rw [← List.cons_append, List.drop_append_of_le_length hlength,
        hclosing.isPrefixOf_append_blank _ hg]
      exact Move.alike_refl _ _
    · rw [if_neg hclose, if_neg hclose]
      exact Move.alike_refl _ _
  | code =>
    have hcomments : lex.lineComments.any (commentAt before (c :: (rest ++ g))) =
        lex.lineComments.any (commentAt before (c :: rest)) := by
      rw [Bool.eq_iff_iff, List.any_eq_true, List.any_eq_true]
      refine exists_congr fun m => and_congr_right fun hm => ?_
      unfold commentAt
      rw [hmark (h.lineComments m hm)]
    have hdelimiters : lex.delimiters.find? (·.opensAt before (c :: (rest ++ g))) =
        lex.delimiters.find? (·.opensAt before (c :: rest)) := by
      refine List.find?_congr fun d hd => ?_
      unfold Delimiter.opensAt
      rw [hmark (h.openings d hd)]
    dsimp only
    rw [hcomments, hmark isMark_opening, hdelimiters]
    -- Only a literal of one character may go on into the white space.
    split_ifs
    · trivial
    · exact Move.alike_refl _ _
    · exact ⟨charLiteralLength_append_blank c rest hg, rfl, rfl⟩
    · exact Move.alike_refl _ _

/-! ## The scan of a line -/

/-- A scan of white space stays in its state. -/
theorem scanFrom_of_blank (h : lex.Legible) {state : Carry} (hstate : state.Within lex) (fuel : ℕ)
    (before : Option Char) (delta : ℤ) {s : List Char} (hs : Text.allBlank s = true) :
    scanFrom lex fuel state before delta s = (delta, state) := by
  induction fuel generalizing before s with
  | zero => rfl
  | succ fuel ih =>
    cases s with
    | nil => rfl
    | cons c rest =>
      have hblank := Text.allBlank_iff.mp hs
      unfold scanFrom
      rw [move_at_blank h hstate (hblank c List.mem_cons_self)]
      dsimp only
      rw [Int.add_zero]
      exact ih _ (Text.allBlank_of_cons hs)

/-- White space behind a text makes no difference to the scan, nor does more fuel than it needs. -/
theorem scanFrom_append_blank (h : lex.Legible) {state : Carry} (hstate : state.Within lex)
    {fuel fuel' : ℕ} (before : Option Char) (delta : ℤ) {s g : List Char}
    (hg : Text.allBlank g = true) (hfuel : s.length ≤ fuel) (hfuel' : (s ++ g).length ≤ fuel') :
    scanFrom lex fuel' state before delta (s ++ g) = scanFrom lex fuel state before delta s := by
  induction fuel generalizing fuel' state before delta s g with
  | zero =>
    obtain rfl := List.length_eq_zero_iff.mp (Nat.le_zero.mp hfuel)
    exact scanFrom_of_blank h hstate fuel' before delta hg
  | succ fuel ih =>
    cases s with
    | nil => exact scanFrom_of_blank h hstate fuel' before delta hg
    | cons c rest =>
      rw [List.cons_append, List.length_cons] at hfuel'
      obtain ⟨fuel', rfl⟩ := Nat.exists_eq_add_of_lt (Nat.lt_of_lt_of_le (Nat.succ_pos _) hfuel')
      rw [Nat.zero_add] at hfuel' ⊢
      have halike := move_append_blank h hstate before c rest hg
      rw [List.cons_append]
      unfold scanFrom
      cases hmove' : move lex state before c (rest ++ g) with
      | stop =>
        cases hmove : move lex state before c rest with
        | stop => rfl
        | take m delta' next =>
          rw [hmove, hmove'] at halike
          exact halike.elim
      | take n delta' next =>
        cases hmove : move lex state before c rest with
        | stop =>
          rw [hmove, hmove'] at halike
          exact halike.elim
        | take m delta'' next' =>
          rw [hmove, hmove'] at halike
          obtain ⟨hreach, rfl, rfl⟩ := halike
          obtain ⟨hpos, hnext⟩ := move_take h hstate hmove
          obtain ⟨hpos', -⟩ := move_take h hstate hmove'
          dsimp only
          rw [← List.cons_append]
          rw [List.length_cons] at hfuel
          rcases hreach with ⟨rfl, hle⟩ | ⟨hend, hend'⟩
          · rw [List.take_append_of_le_length hle, List.drop_append_of_le_length hle]
            refine ih hnext _ _ hg ?_ ?_
            · rw [List.length_drop, List.length_cons]
              omega
            · rw [List.length_append] at hfuel' ⊢
              rw [List.length_drop, List.length_cons]
              omega
          · -- Both are at the end of the text, and only white space is left.
            have hdrop : (c :: rest).drop m = [] := List.drop_eq_nil_of_le hend
            have hdrop' : (c :: rest ++ g).drop n = g.drop (n - (c :: rest).length) := by
              rw [List.drop_append, List.drop_eq_nil_of_le hend', List.nil_append]
            have hblank : Text.allBlank (g.drop (n - (c :: rest).length)) = true :=
              Text.allBlank_iff.mpr fun d hd =>
                Text.allBlank_iff.mp hg d (List.mem_of_mem_drop hd)
            rw [hdrop, hdrop', scanFrom_of_blank h hnext fuel' _ _ hblank,
              scanFrom_of_blank h hnext fuel _ _ rfl]

/-- White space in front of a text makes no difference to the scan. -/
theorem scanFrom_blank_append (h : lex.Legible) {state : Carry} (hstate : state.Within lex)
    (before : Option Char) (hbefore : before.all Text.isBlank = true) (delta : ℤ) {g : List Char}
    (hg : Text.allBlank g = true) (s : List Char) :
    scanFrom lex (g ++ s).length state before delta (g ++ s) =
      scanFrom lex s.length state none delta s := by
  induction g generalizing before with
  | nil =>
    cases s with
    | nil => rfl
    | cons c rest =>
      rw [List.nil_append, List.length_cons]
      unfold scanFrom
      rw [move_behind_blank hbefore]
      cases hmove : move lex state none c rest with
      | stop => rfl
      | take n delta' next =>
        -- The step takes a character, so nothing else is in front of what is left.
        obtain ⟨hpos, -⟩ := move_take h hstate hmove
        obtain ⟨n, rfl⟩ := Nat.exists_eq_add_of_lt hpos
        dsimp only
        rw [Nat.zero_add, List.take_succ_cons, List.getLast?_cons, Option.some_or, Option.some_or]
  | cons c g ih =>
    have hblank : Text.isBlank c = true := Text.allBlank_iff.mp hg c List.mem_cons_self
    rw [List.cons_append, List.length_cons]
    conv_lhs => unfold scanFrom
    rw [move_at_blank h hstate hblank]
    dsimp only
    rw [Int.add_zero]
    exact ih (some c) hblank (Text.allBlank_of_cons hg)

/-- White space at the ends of a line makes no difference to the scan of the line. -/
theorem scanLine_between_blanks (h : lex.Legible) {start : Carry} (hstart : start.Within lex)
    {g g' : List Char} (hg : Text.allBlank g = true) (hg' : Text.allBlank g' = true)
    (s : List Char) : scanLine lex start (g ++ s ++ g') = scanLine lex start s := by
  have hfront := scanFrom_blank_append h hstart none rfl 0 hg (s ++ g')
  have hback := scanFrom_append_blank h hstart none 0 hg' (Nat.le_refl s.length) (Nat.le_refl _)
  unfold scanLine
  rw [List.append_assoc, hfront, hback]

end CodeTidy.Whitespace
