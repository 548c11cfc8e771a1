import CodeTidy.Proofs.Brace.Conservation
import CodeTidy.Proofs.Brace.Data

/-!
# Lists of names between braces

Declarations that take a value apart, imports and exports list names between braces. The brace of
such a list stands behind a word, so the layout takes it for the brace of a block, and the names for
a statement that lacks its semicolon. Lines that are finished stay as they are whatever follows, so
the first three lines of the output tell what becomes of the list.
-/

namespace CodeTidy.Brace

/-! ## Finished lines -/

/-- Finishing a line leaves the lines that are finished. -/
theorem done_flush (unit : List Char) {st : State} {done : List (List Char)} (h : st.done = done) :
    done <:+ (st.flush unit).done := by
  subst h
  unfold State.flush
  dsimp only
  split_ifs
  · exact List.suffix_rfl
  · exact (List.suffix_cons [] st.done).trans (List.suffix_cons _ _)
  · exact List.suffix_cons _ _

/-- So does writing a blank. -/
theorem done_space (st : State) : st.space.done = st.done := by
  unfold State.space
  split <;> rfl

/-- So does writing a block comment. -/
theorem done_writeComment (unit : List Char) (st : State) (parts : List (List Char)) :
    st.done <:+ (writeComment unit st parts).done := by
  induction parts generalizing st with
  | nil => exact List.suffix_rfl
  | cons part parts ih =>
    have hpart : ((if (Text.trim part).head? == some '*' && st.line.isEmpty then st.put ' '
        else st.space).write (Text.trim part)).done = st.done := by
      split_ifs
      · rfl
      · exact done_space st
    unfold writeComment
    dsimp only
    split
    · exact hpart ▸ List.suffix_rfl
    · exact (done_flush unit hpart).trans (ih _)

variable {cfg : Config}

/-- A line break leaves the lines that are finished. -/
theorem done_lineBreak (cfg : Config) (rest : List Char) (st : State) :
    st.done <:+ (st.lineBreak cfg rest).done := by
  unfold State.lineBreak
  dsimp only
  refine iteInduction (motive := fun st' : State => st.done <:+ st'.done) (fun _ => ?_) fun _ => ?_
  · exact done_flush cfg.unit rfl
  · exact (done_space _).symm ▸ List.suffix_rfl

/-- So does an opening brace. -/
theorem done_openBrace (cfg : Config) (raw : List Char) (st : State) :
    st.done <:+ (st.openBrace cfg raw).done := by
  have hraw : ((if raw == ['\x7b'] && cfg.mode != .data then st.space else st).write raw).done =
      st.done := by
    split_ifs
    · exact done_space st
    · rfl
  exact done_flush cfg.unit hraw

/-- So does a closing bracket, -/
theorem done_putClosing (cfg : Config) (c : Char) (follow : Follow) (depth : ℕ)
    (frames : List Frame) (parens : ℕ) (st : State) :
    st.done <:+ (st.putClosing cfg c follow depth frames parens).done := by
  have hflush : st.done <:+ (st.flush cfg.unit).done := done_flush cfg.unit rfl
  cases follow with
  | mark => exact hflush
  | word => exact hflush
  | other => exact hflush.trans (done_flush cfg.unit rfl)

/-- with a semicolon in front of it or without. -/
theorem done_closeBrace (cfg : Config) (c : Char) (follow : Follow) (st : State) :
    st.done <:+ (st.closeBrace cfg c follow).done := by
  obtain ⟨wanted, -, depth, frames, parens, heq⟩ := closeBrace_eq cfg c follow st
  have hput : (if wanted then st.put ';' else st).done = st.done := by
    split_ifs <;> rfl
  rw [heq, ← hput]
  exact done_putClosing cfg c follow depth frames parens _

/-- A step of the layout leaves the lines that are finished. -/
theorem done_step (cfg : Config) (st : State) (x : Lexeme) :
    st.done <:+ (st.step cfg x).done := by
  have hstart : (if x.raw.all Text.isBlank then st else { st with breaks := 0 }).done =
      st.done := by
    split_ifs <;> rfl
  unfold State.step
  dsimp only
  generalize (if x.raw.all Text.isBlank then st else { st with breaks := 0 }) = st' at hstart ⊢
  rw [← hstart]
  cases x.kind with
  | lineBreak => exact done_lineBreak cfg x.rest st'
  | lineComment => exact done_flush cfg.unit (done_space st')
  | blockComment => exact done_writeComment cfg.unit st' _
  | emptyPair =>
    dsimp only
    split_ifs
    · exact (done_space st').symm ▸ List.suffix_rfl
    · exact List.suffix_rfl
  | opener => exact done_openBrace cfg x.raw st'
  | closer follow =>
    dsimp only
    split
    · exact done_closeBrace cfg _ follow st'
    · exact List.suffix_rfl
  | semicolon commented =>
    dsimp only
    split_ifs
    · exact done_flush cfg.unit rfl
    · exact List.suffix_rfl
  | comma =>
    dsimp only
    split_ifs
    · exact done_flush cfg.unit rfl
    · exact List.suffix_rfl
  | blank => exact (done_space st').symm ▸ List.suffix_rfl
  | regex | literal | parenOpen | parenClose | colon | other => exact List.suffix_rfl

/-- Laying out a text leaves the lines that are finished. -/
theorem done_run (cfg : Config) (fuel : ℕ) (st : State) (text : List Char) :
    st.done <:+ (State.run cfg fuel st text).done := by
  induction fuel generalizing st text with
  | zero => exact List.suffix_rfl
  | succ fuel ih =>
    cases text with
    | nil => exact List.suffix_rfl
    | cons c rest => exact (done_step cfg st _).trans (ih _ _)

/-- The lines that are finished come first in the output, whatever text follows. -/
theorem exists_finish_lay (cfg : Config) (st : State) (text : List Char) :
    ∃ more, (st.lay cfg text).finish cfg.unit = Text.lined st.done ++ more := by
  have hdone : st.done <:+ ((st.lay cfg text).flush cfg.unit).done :=
    (done_run cfg text.length st text).trans (done_flush cfg.unit rfl)
  obtain ⟨above, habove⟩ := hdone
  refine ⟨Text.lined above, ?_⟩
  show Text.lined ((st.lay cfg text).flush cfg.unit).done = _
  rw [← habove]
  unfold Text.lined
  rw [List.reverse_append, List.map_append, List.flatten_append]

/-! ## Names -/

/-- A character of a name in a script, as it is written there: a character of an ASCII name, the
backslash of an escape, or one beyond ASCII that is no white space. -/
def isIdentChar (c : Char) : Bool :=
  isNameChar c || c == '\\' || (0x80 ≤ c.toNat && !Text.isBlank c)

/-- A name in a script. -/
def IsName (name : List Char) : Prop := name ≠ [] ∧ ∀ c ∈ name, isIdentChar c = true

instance (name : List Char) : Decidable (IsName name) :=
  decidable_of_iff (name ≠ [] ∧ name.all isIdentChar = true) (by simp [IsName])

/-- Names with a comma and a blank between them. -/
def listed (name : List Char) (names : List (List Char)) : List Char :=
  name ++ names.flatMap ([',', ' '] ++ ·)

/-- A character of a name is none of the other characters. -/
theorem ne_of_identChar {c d : Char} (h : isIdentChar c = true) (hd : isIdentChar d = false) :
    c ≠ d := by
  rintro rfl
  rw [h] at hd
  exact Bool.noConfusion hd

/-- It is no white space. -/
theorem isBlank_of_identChar {c : Char} (h : isIdentChar c = true) : Text.isBlank c = false := by
  by_contra hblank
  rw [Bool.not_eq_false] at hblank
  have hmark : c ∉ ['_', '$', '\\'] := Text.not_mem_of_blank hblank (by decide)
  simp only [List.mem_cons, List.not_mem_nil, or_false, not_or] at hmark
  simp [isIdentChar, isNameChar, Text.isAsciiAlphanumeric_of_blank hblank, hblank, hmark] at h

/-- It is a lexeme of its own, which nothing is known of. -/
theorem measure_identChar {c : Char} (h : isIdentChar c = true) (line rest : List Char) :
    measure .script line c rest = (.other, 1) := by
  have hne : ∀ d : Char, isIdentChar d = false → (c == d) = false := fun d hd =>
    beq_eq_false_iff_ne.mpr (ne_of_identChar h hd)
  unfold measure
  simp [hne '\n' (by decide), hne '"' (by decide), hne '\'' (by decide), hne '\x60' (by decide),
    hne '/' (by decide), hne '\x7b' (by decide), hne '[' (by decide), hne '\x7d' (by decide),
    hne ']' (by decide), hne '(' (by decide), hne ')' (by decide), hne ';' (by decide),
    hne ',' (by decide), isBlank_of_identChar h]

/-! ## The layout of a list of names -/

/-- A declaration that lists names between braces. -/
inductive Listing where
  /-- Names taken out of a value. -/
  | destructured (initializer : List Char)
  | imported (module : List Char)
  | exported

/-- The word in front of the brace. -/
def Listing.keyword : Listing → List Char
  | .destructured _ => "const".toList
  | .imported _ => "import".toList
  | .exported => "export".toList

/-- It is a word. -/
theorem Listing.keyword_ident (form : Listing) : ∀ c ∈ form.keyword, isIdentChar c = true := by
  have hwords : ∀ word ∈ ["const", "import", "export"], IsName word.toList := by decide
  cases form with
  | destructured => exact (hwords "const" (by decide)).2
  | imported => exact (hwords "import" (by decide)).2
  | exported => exact (hwords "export" (by decide)).2

/-- What stands behind the closing brace. -/
def Listing.tail : Listing → List Char
  | .destructured initializer => " = ".toList ++ initializer
  | .imported module => " from '".toList ++ module ++ ['\'']
  | .exported => []

/-- It stays on the line of the brace neither as a mark nor as a word. -/
theorem Listing.followOf_tail (form : Listing) : followOf form.tail = .other := by
  cases form with
  | destructured initializer =>
    show followOf (' ' :: '=' :: ' ' :: initializer) = .other
    rfl
  | imported module =>
    show followOf (" from".toList ++ ' ' :: '\'' :: (module ++ ['\''])) = .other
    rfl
  | exported => rfl

/-- The declaration with its names. -/
def Listing.text (form : Listing) (name : List Char) (names : List (List Char)) : List Char :=
  form.keyword ++ (" \x7b ".toList ++ (listed name names ++ (" \x7d".toList ++ form.tail)))

/-- The state of a script inside braces, with the current line reversed. No parenthesis is open. -/
def State.amid (frames : List Frame) (done : List (List Char)) (line : List Char) : State where
  done := done
  line := line
  depth := frames.length
  frames := frames

/-- Finishing a line that is not empty indents what is on it without the white space at its ends. -/
theorem flush_amid {line text : List Char} (htext : Text.trim line.reverse = text) (hne : text ≠ [])
    (unit : List Char) (frames : List Frame) (done : List (List Char)) :
    (State.amid frames done line).flush unit =
      State.amid frames ((indent unit frames.length ++ text) :: done) [] := by
  subst htext
  unfold State.flush
  dsimp only [State.amid]
  rw [if_neg (by simpa [List.isEmpty_iff] using hne)]
  rfl

/-- A list of names starts with a character of a name, -/
theorem exists_listed_eq_cons {name : List Char} (hname : IsName name)
    (names : List (List Char)) :
    ∃ c rest, listed name names = c :: rest ∧ isIdentChar c = true := by
  obtain ⟨c, rest, rfl⟩ := List.exists_cons_of_ne_nil hname.1
  exact ⟨c, rest ++ names.flatMap ([',', ' '] ++ ·), rfl, hname.2 c List.mem_cons_self⟩

/-- and it ends in one. -/
theorem exists_listed_eq_concat {name : List Char} {names : List (List Char)}
    (hnames : ∀ n ∈ name :: names, IsName n) :
    ∃ init c, listed name names = init ++ [c] ∧ isIdentChar c = true := by
  -- What ends in a name ends in a character of it.
  have hlast : ∀ (before : List Char) {n : List Char}, IsName n →
      ∃ init c, before ++ n = init ++ [c] ∧ isIdentChar c = true := by
    intro before n hn
    refine ⟨before ++ n.dropLast, n.getLast hn.1, ?_, hn.2 _ (List.getLast_mem hn.1)⟩
    rw [List.append_assoc, List.dropLast_append_getLast]
  rcases List.eq_nil_or_concat names with rfl | ⟨names, last, rfl⟩
  · have hempty : listed name [] = [] ++ name := List.append_nil name
    rw [hempty]
    exact hlast [] (hnames name List.mem_cons_self)
  · have hconcat : listed name (names ++ [last]) = (listed name names ++ [',', ' ']) ++ last := by
      simp [listed]
    rw [List.concat_eq_append, hconcat]
    exact hlast _ (hnames last (by simp))

/-- So nothing is trimmed off it. -/
theorem trimmed_listed {name : List Char} {names : List (List Char)}
    (hnames : ∀ n ∈ name :: names, IsName n) : Text.Trimmed (listed name names) := by
  obtain ⟨c, rest, hcons, hc⟩ := exists_listed_eq_cons (hnames name List.mem_cons_self) names
  obtain ⟨init, d, hconcat, hd⟩ := exists_listed_eq_concat hnames
  refine ⟨?_, ?_⟩
  · rw [hcons]
    rintro _ ⟨⟩
    exact isBlank_of_identChar hc
  · rw [hconcat, List.getLast?_concat]
    rintro _ ⟨⟩
    exact isBlank_of_identChar hd

/-- The layout takes it for a statement that lacks its semicolon. -/
theorem needsSemicolon_listed {name : List Char} {names : List (List Char)}
    (hnames : ∀ n ∈ name :: names, IsName n) :
    needsSemicolon (' ' :: (listed name names).reverse) = true := by
  have htrim : Text.trim (' ' :: (listed name names).reverse).reverse = listed name names := by
    rw [List.reverse_cons, List.reverse_reverse, Text.trim_append_blank (by decide),
      Text.trim_eq_self (trimmed_listed hnames)]
  obtain ⟨c, rest, hcons, hc⟩ := exists_listed_eq_cons (hnames name List.mem_cons_self) names
  obtain ⟨init, d, hconcat, hd⟩ := exists_listed_eq_concat hnames
  -- Both ends are characters of names, and none of the exceptions starts or ends in one.
  have hempty : (listed name names).isEmpty = false := by
    rw [hcons]
    rfl
  have hcomment : ∀ e, ['/', e].isPrefixOf (listed name names) = false := by
    intro e
    rw [hcons, List.isPrefixOf_cons_cons,
      beq_eq_false_iff_ne.mpr (ne_of_identChar hc (d := '/') (by decide)).symm]
    rfl
  have hclosed : ['*', '/'].isSuffixOf (listed name names) = false := by
    rw [hconcat, List.isSuffixOf, List.reverse_append]
    show ('/' == d && ['*'].isPrefixOf init.reverse) = false
    rw [beq_eq_false_iff_ne.mpr (ne_of_identChar hd (d := '/') (by decide)).symm]
    rfl
  have hend : Text.endsIn beforeNoSemicolon (listed name names) = false := by
    unfold Text.endsIn
    rw [hconcat, List.getLast?_concat]
    by_contra hmem
    rw [Bool.not_eq_false, List.contains_iff_mem] at hmem
    have hmarks : beforeNoSemicolon.all (!isIdentChar ·) = true := by decide
    have hmark := List.all_eq_true.mp hmarks d hmem
    rw [hd] at hmark
    exact Bool.noConfusion hmark
  unfold needsSemicolon
  dsimp only
  rw [htrim, hempty, hcomment, hcomment, hclosed, hend]
  rfl

/-- It becomes a line of its own, with the semicolon if there are to be semicolons. -/
theorem flush_listed {name : List Char} {names : List (List Char)}
    (hnames : ∀ n ∈ name :: names, IsName n) (unit : List Char) (semi : Bool) (frame : Frame)
    (done : List (List Char)) :
    (State.amid [frame] done
        ((if semi then [';'] else []) ++ ' ' :: (listed name names).reverse)).flush unit =
      State.amid [frame]
        ((unit ++ (listed name names ++ if semi then " ;".toList else [])) :: done) [] := by
  obtain ⟨c, rest, hcons, hc⟩ := exists_listed_eq_cons (hnames name List.mem_cons_self) names
  have hne : listed name names ++ (if semi then " ;".toList else []) ≠ [] := by
    rw [hcons]
    exact List.cons_ne_nil _ _
  have hindent : indent unit 1 = unit := by
    simp [indent]
  have htrim :
      Text.trim ((if semi then [';'] else []) ++ ' ' :: (listed name names).reverse).reverse =
        listed name names ++ if semi then " ;".toList else [] := by
    have htrimmed := trimmed_listed hnames
    cases semi with
    | false =>
      show Text.trim (' ' :: (listed name names).reverse).reverse = listed name names ++ []
      rw [List.reverse_cons, List.reverse_reverse, Text.trim_append_blank (by decide),
        Text.trim_eq_self htrimmed, List.append_nil]
    | true =>
      have hhead : ∀ d, (listed name names ++ [' ']).head? = some d → Text.isBlank d = false := by
        rw [hcons]
        rintro _ ⟨⟩
        exact isBlank_of_identChar hc
      show Text.trim (';' :: ' ' :: (listed name names).reverse).reverse =
        listed name names ++ ([' '] ++ [';'])
      rw [List.reverse_cons, List.reverse_cons, List.reverse_reverse,
        Text.trim_eq_self (Text.trimmed_concat hhead (by decide)), List.append_assoc]
  rw [flush_amid htrim hne, List.length_singleton, hindent]

section
variable (hscript : cfg.mode = .script)
include hscript

/-- Characters of a name go on the line as they are. -/
theorem lay_name {name : List Char} (hname : ∀ c ∈ name, isIdentChar c = true) (frames : List Frame)
    (done : List (List Char)) (line rest : List Char) :
    (State.amid frames done line).lay cfg (name ++ rest) =
      (State.amid frames done (name.reverse ++ line)).lay cfg rest := by
  induction name generalizing line with
  | nil => rfl
  | cons c name ih =>
    rw [List.forall_mem_cons] at hname
    have hmeasure : measure cfg.mode line c (name ++ rest) = (.other, 1) := by
      rw [hscript]
      exact measure_identChar hname.1 line _
    have hstep : (State.amid frames done line).step cfg ⟨.other, [c], name ++ rest⟩ =
        State.amid frames done (c :: line) := by
      unfold State.step
      simp [isBlank_of_identChar hname.1, State.write, State.amid]
    rw [List.cons_append, lay_char hmeasure, hstep, ih hname.2]
    simp

/-- A blank is one on the line, unless the line is empty or ends in one. -/
theorem lay_space (frames : List Frame) (done : List (List Char)) (line rest : List Char) :
    (State.amid frames done line).lay cfg (' ' :: rest) =
      (State.amid frames done (withBlank line)).lay cfg rest := by
  have hmeasure : measure cfg.mode line ' ' rest = (.blank, 1) := by
    rw [hscript]
    rfl
  have hstep : (State.amid frames done line).step cfg ⟨.blank, [' '], rest⟩ =
      State.amid frames done (withBlank line) := space_eq _
  rw [lay_char hmeasure, hstep]

/-- A comma between statements stays on its line. -/
theorem lay_comma_statements (done : List (List Char)) (line rest : List Char) :
    (State.amid [⟨.statements, 0⟩] done line).lay cfg (',' :: rest) =
      (State.amid [⟨.statements, 0⟩] done (',' :: line)).lay cfg rest := by
  have hmeasure : measure cfg.mode line ',' rest = (.comma, 1) := by
    rw [hscript]
    rfl
  rw [lay_char hmeasure]
  rfl

/-- Names go on one line. -/
theorem lay_listed {name : List Char} {names : List (List Char)}
    (hnames : ∀ n ∈ name :: names, IsName n) (done : List (List Char)) (rest : List Char) :
    (State.amid [⟨.statements, 0⟩] done []).lay cfg (listed name names ++ rest) =
      (State.amid [⟨.statements, 0⟩] done (listed name names).reverse).lay cfg rest := by
  -- Behind the first one, each name brings its comma and its blank.
  have hothers : ∀ (names : List (List Char)) (line : List Char), (∀ n ∈ names, IsName n) →
      (State.amid [⟨.statements, 0⟩] done line).lay cfg
          (names.flatMap ([',', ' '] ++ ·) ++ rest) =
        (State.amid [⟨.statements, 0⟩] done
          ((names.flatMap ([',', ' '] ++ ·)).reverse ++ line)).lay cfg rest := by
    intro names line hnames
    induction names generalizing line with
    | nil => rfl
    | cons n names ih =>
      rw [List.forall_mem_cons] at hnames
      rw [List.flatMap_cons, List.append_assoc, List.append_assoc]
      show (State.amid [⟨.statements, 0⟩] done line).lay cfg (',' :: ' ' :: (n ++ _)) = _
      rw [lay_comma_statements hscript, lay_space hscript, lay_name hscript hnames.1.2,
        ih _ hnames.2]
      simp [withBlank]
  rw [List.forall_mem_cons] at hnames
  unfold listed
  rw [List.append_assoc, lay_name hscript hnames.1.2, hothers _ _ hnames.2]
  simp

/-- The brace in front of names is taken for that of a block. -/
theorem lay_keyword (form : Listing) {c : Char} (hc : isIdentChar c = true) (rest : List Char) :
    ({} : State).lay cfg (form.keyword ++ (" \x7b ".toList ++ c :: rest)) =
      (State.amid [⟨.statements, 0⟩] [form.keyword ++ " \x7b".toList] []).lay cfg (c :: rest) := by
  have hmeasure : measure cfg.mode (' ' :: form.keyword.reverse) '\x7b' (' ' :: c :: rest) =
      (.opener, 1) := by
    have hdrop : (' ' :: c :: rest).dropWhile Text.isBlank = c :: rest := by
      rw [List.dropWhile_cons_of_pos (by decide),
        List.dropWhile_cons_of_neg (by simp [isBlank_of_identChar hc])]
    have hsolid : (c == '\x7d') = false :=
      beq_eq_false_iff_ne.mpr (ne_of_identChar hc (by decide))
    rw [hscript]
    unfold measure
    simp [hdrop, closing, hsolid]
  have hstep : (State.amid [] [] (' ' :: form.keyword.reverse)).step cfg
      ⟨.opener, ['\x7b'], ' ' :: c :: rest⟩ =
        State.amid [⟨.statements, 0⟩] [form.keyword ++ " \x7b".toList] [] := by
    unfold State.step State.openBrace
    rw [hscript]
    cases form <;> rfl
  have hline : withBlank (form.keyword.reverse ++ []) = ' ' :: form.keyword.reverse := by
    cases form <;> rfl
  show (State.amid [] [] []).lay cfg (form.keyword ++ ' ' :: '\x7b' :: ' ' :: c :: rest) = _
  rw [lay_name hscript form.keyword_ident, lay_space hscript, hline, lay_char hmeasure, hstep,
    lay_space hscript]
  rfl

/-- A brace behind a statement that lacks its semicolon. -/
theorem closeBrace_amid {line text : List Char} {done : List (List Char)}
    (hneeds : needsSemicolon line = true)
    (hflush : (State.amid [⟨.statements, 0⟩] done
      ((if cfg.semi then [';'] else []) ++ line)).flush cfg.unit =
        State.amid [⟨.statements, 0⟩] (text :: done) []) :
    (State.amid [⟨.statements, 0⟩] done line).closeBrace cfg '\x7d' .other =
      State.amid [] (['\x7d'] :: text :: done) [] := by
  have hput : (if cfg.semi && needsSemicolon line then
        (State.amid [⟨.statements, 0⟩] done line).put ';'
      else .amid [⟨.statements, 0⟩] done line) =
      .amid [⟨.statements, 0⟩] done ((if cfg.semi then [';'] else []) ++ line) := by
    rw [hneeds]
    cases cfg.semi <;> rfl
  have hframe : (State.amid [⟨.statements, 0⟩] done line).frames.head?.all
      (·.enclosure == .statements) = true := rfl
  have hline : (State.amid [⟨.statements, 0⟩] done line).line = line := rfl
  unfold State.closeBrace
  simp only [hscript, hframe, Bool.and_true, hline, hput, hflush]
  rfl

/-- The brace behind names closes a block, and the last name gets a semicolon. -/
theorem lay_names_end {name : List Char} {names : List (List Char)}
    (hnames : ∀ n ∈ name :: names, IsName n) {rest : List Char} (hrest : followOf rest = .other)
    (done : List (List Char)) :
    (State.amid [⟨.statements, 0⟩] done (listed name names).reverse).lay cfg
        (" \x7d".toList ++ rest) =
      (State.amid [] (['\x7d'] ::
        (cfg.unit ++ (listed name names ++ if cfg.semi then " ;".toList else [])) :: done) []).lay
          cfg rest := by
  obtain ⟨init, c, hconcat, hc⟩ := exists_listed_eq_concat hnames
  have hline : withBlank (listed name names).reverse = ' ' :: (listed name names).reverse := by
    rw [hconcat, List.reverse_append]
    exact withBlank.eq_3 c _ (ne_of_identChar hc (by decide))
  have hmeasure : measure cfg.mode (' ' :: (listed name names).reverse) '\x7d' rest =
      (.closer .other, 1) := by
    rw [hscript]
    unfold measure
    simp [hrest]
  have hstep : (State.amid [⟨.statements, 0⟩] done (' ' :: (listed name names).reverse)).step cfg
      ⟨.closer .other, ['\x7d'], rest⟩ =
        (State.amid [⟨.statements, 0⟩] done (' ' :: (listed name names).reverse)).closeBrace cfg
          '\x7d' .other := by
    have hsolid : ¬['\x7d'].all Text.isBlank = true := by decide
    unfold State.step
    dsimp only
    rw [if_neg hsolid]
    rfl
  show (State.amid _ done (listed name names).reverse).lay cfg (' ' :: '\x7d' :: rest) = _
  rw [lay_space hscript, hline, lay_char hmeasure, hstep,
    closeBrace_amid hscript (needsSemicolon_listed hnames)
      (flush_listed hnames cfg.unit cfg.semi ⟨.statements, 0⟩ done)]

/-- The first three lines of the output hold the keyword, the names and the closing brace. -/
theorem exists_layout_listing (form : Listing) {name : List Char} {names : List (List Char)}
    (hnames : ∀ n ∈ name :: names, IsName n) :
    ∃ more, layout cfg (form.text name names) =
      form.keyword ++ " \x7b\n".toList ++
        (cfg.unit ++ (listed name names ++ if cfg.semi then " ;".toList else [])) ++
          "\n\x7d".toList ++ more := by
  obtain ⟨c, rest, hcons, hc⟩ := exists_listed_eq_cons (hnames name List.mem_cons_self) names
  have hopen := lay_keyword hscript form hc (rest ++ (" \x7d".toList ++ form.tail))
  rw [← List.cons_append, ← hcons] at hopen
  have hlay : ({} : State).lay cfg (form.text name names) =
      (State.amid [] (['\x7d'] ::
        (cfg.unit ++ (listed name names ++ if cfg.semi then " ;".toList else [])) ::
          [form.keyword ++ " \x7b".toList]) []).lay cfg form.tail := by
    unfold Listing.text
    rw [hopen, lay_listed hscript hnames, lay_names_end hscript hnames form.followOf_tail]
  -- Whatever stands behind the closing brace only adds to the three lines.
  obtain ⟨more, hmore⟩ := exists_finish_lay cfg (.amid [] (['\x7d'] ::
    (cfg.unit ++ (listed name names ++ if cfg.semi then " ;".toList else [])) ::
      [form.keyword ++ " \x7b".toList]) []) form.tail
  refine ⟨'\n' :: more, ?_⟩
  show (({} : State).lay cfg (form.text name names)).finish cfg.unit = _
  rw [hlay, hmore]
  simp [Text.lined, State.amid]

end

/-- The names of a list stand on a line of their own in the output, in a script of any settings.
Between the braces is no semicolon that the list does not have, unless semicolons are asked for:
then there is always one, behind the last name, although no statement ends there. -/
theorem beautified_ends_listing {language : String}
    (hlanguage : (language, Mode.script) ∈ Mode.languages) (settings : Settings) (form : Listing)
    {name : List Char} {names : List (List Char)} (hnames : ∀ n ∈ name :: names, IsName n) :
    ∃ inner more,
      Backend.beautified ⟨String.ofList (form.text name names), language, settings⟩ =
        .ok (String.ofList (form.keyword ++ " \x7b\n".toList ++ inner ++ "\n\x7d".toList ++ more)) ∧
      inner = settings.indentUnit ++
        (listed name names ++ if settings.semi then " ;".toList else []) ∧
      '\x7d' ∉ inner ∧
      ';' ∉ listed name names ∧
      (';' ∈ inner ↔ settings.semi = true) := by
  have hscript : (Config.ofSettings .script settings).mode = .script := rfl
  obtain ⟨more, hmore⟩ := exists_layout_listing hscript form hnames
  -- Neither the indentation nor the names have any of the two marks.
  have hunit : ∀ d, Text.isBlank d = false → d ∉ settings.indentUnit := by
    intro d hd hmem
    have hblank := Text.allBlank_iff.mp settings.allBlank_indentUnit d hmem
    exact Bool.noConfusion (hd.symm.trans hblank)
  have hlisted : ∀ d, isIdentChar d = false → d ∉ [',', ' '] → d ∉ listed name names := by
    intro d hd hsep hmem
    rw [List.forall_mem_cons] at hnames
    rcases List.mem_append.mp hmem with hmem | hmem
    · exact ne_of_identChar (hnames.1.2 d hmem) hd rfl
    · obtain ⟨n, hn, hmem⟩ := List.mem_flatMap.mp hmem
      rcases List.mem_append.mp hmem with hmem | hmem
      · exact hsep hmem
      · exact ne_of_identChar ((hnames.2 n hn).2 d hmem) hd rfl
  have hbrace := hlisted '\x7d' (by decide) (by decide)
  have hsemicolon := hlisted ';' (by decide) (by decide)
  refine ⟨_, more, ?_, rfl, ?_, hsemicolon, ?_⟩
  · rw [beautified_eq hlanguage, String.toList_ofList, hmore]
    rfl
  · cases settings.semi <;> simp [hunit '\x7d' (by decide), hbrace]
  · cases settings.semi <;> simp [hunit ';' (by decide), hsemicolon]

/-- The names of an import without semicolons. -/
theorem beautified_ends_listing_import :
    ("typescript", Mode.script) ∈ Mode.languages ∧
      (∀ n ∈ ["a".toList, "$b".toList], IsName n) ∧
      ∃ inner more,
        Backend.beautified ⟨"import \x7b a, $b \x7d from 'm'", "typescript",
            Settings.resolve { semi := some false } "typescript"⟩ =
          .ok (String.ofList ("import \x7b\n".toList ++ inner ++ "\n\x7d".toList ++ more)) ∧
        inner = "  a, $b".toList ∧ ';' ∉ inner := by
  have hmode : ("typescript", Mode.script) ∈ Mode.languages := by decide
  have hnames : ∀ n ∈ ["a".toList, "$b".toList], IsName n := by decide
  obtain ⟨inner, more, hout, hinner, -, -, hiff⟩ := beautified_ends_listing hmode
    (Settings.resolve { semi := some false } "typescript") (.imported "m".toList) hnames
  refine ⟨hmode, hnames, inner, more, hout, hinner, ?_⟩
  rw [hiff]
  decide

/-- Names taken out of a value get a semicolon that no statement ends in. -/
theorem beautified_ends_names :
    (Settings.resolve {} "javascript").semi = true ∧
      (∀ n ∈ ["a".toList, "b".toList], IsName n) ∧
      "const \x7b a, b \x7d = c".toList =
        (Listing.destructured ['c']).text "a".toList ["b".toList] ∧
      Backend.beautified
          ⟨"const \x7b a, b \x7d = c", "javascript", Settings.resolve {} "javascript"⟩ =
        .ok "const \x7b\n  a, b ;\n\x7d\n= c\n" := by
  refine ⟨by decide, by decide, by decide, ?_⟩
  rfl

end CodeTidy.Brace
