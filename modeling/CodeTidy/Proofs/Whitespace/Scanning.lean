import CodeTidy.Proofs.Text.Blank
import CodeTidy.Whitespace.Scan

/-!
# What a scan makes of white space

A line of white space opens no literal, because no mark of a literal starts with white space. So a
line that the scan leaves inside a literal has something on it, unless the scan entered it inside
one.
-/

namespace CodeTidy.Whitespace

/-- No mark that opens a literal starts with white space. -/
def Lexicon.Marked (lex : Lexicon) : Prop :=
  ∀ d ∈ lex.delimiters, ∃ c rest, d.opening = c :: rest ∧ Text.isBlank c = false

/-- The lexicons of the languages are marked. -/
theorem marked_of_language {language : String} {lex : Lexicon}
    (h : Lexicon.ofLanguage? language = some lex) : lex.Marked := by
  have htable : ∀ entry ∈ Lexicon.table, ∀ d ∈ entry.2.delimiters,
      (d.opening.head?.any fun c => !Text.isBlank c) = true := by decide
  unfold Lexicon.ofLanguage? at h
  obtain ⟨entry, hentry, rfl⟩ := Option.map_eq_some_iff.mp h
  intro d hd
  have hopening := htable entry (List.mem_of_find?_eq_some hentry) d hd
  cases hd : d.opening with
  | nil =>
    rw [hd] at hopening
    exact Bool.noConfusion hopening
  | cons c rest =>
    rw [hd] at hopening
    exact ⟨c, rest, rfl, by simpa using hopening⟩

/-- White space opens no literal. -/
theorem opensAt_blank {lex : Lexicon} (h : lex.Marked) {c : Char} (hc : Text.isBlank c = true)
    (before : Option Char) (rest : List Char) :
    lex.delimiters.find? (·.opensAt before (c :: rest)) = none := by
  rw [List.find?_eq_none]
  intro d hd hopens
  obtain ⟨m, marks, hopening, hm⟩ := h d hd
  unfold Delimiter.opensAt at hopens
  rw [hopening, Bool.and_eq_true] at hopens
  obtain ⟨hstarts, -⟩ := hopens
  rw [List.isPrefixOf_cons_cons, Bool.and_eq_true, beq_iff_eq] at hstarts
  rw [hstarts.1, hc] at hm
  exact Bool.noConfusion hm

/-- Behind white space the scan is in a literal only if it was in one. -/
theorem move_blank {lex : Lexicon} (h : lex.Marked) {state next : Carry}
    (hstate : state.isLiteral = false) {c : Char} (hc : Text.isBlank c = true)
    {before : Option Char} {rest : List Char} {length : ℕ} {delta : ℤ}
    (hmove : move lex state before c rest = .take length delta next) :
    next.isLiteral = false := by
  cases state with
  | literal d => exact Bool.noConfusion hstate
  | blockComment =>
    unfold move at hmove
    dsimp only at hmove
    split_ifs at hmove
    · obtain ⟨-, -, rfl⟩ := Move.take.inj hmove
      rfl
    · obtain ⟨-, -, rfl⟩ := Move.take.inj hmove
      rfl
  | code =>
    unfold move at hmove
    dsimp only at hmove
    rw [opensAt_blank h hc] at hmove
    -- What is left are moves into a comment or on in the code.
    split_ifs at hmove
    · obtain ⟨-, -, rfl⟩ := Move.take.inj hmove
      rfl
    · obtain ⟨-, -, rfl⟩ := Move.take.inj hmove
      rfl
    · obtain ⟨-, -, rfl⟩ := Move.take.inj hmove
      rfl

/-- A scan of white space ends in a literal only if it starts in one. -/
theorem scanFrom_blank {lex : Lexicon} (h : lex.Marked) (fuel : ℕ) {state : Carry}
    (hstate : state.isLiteral = false) (before : Option Char) (delta : ℤ) {s : List Char}
    (hs : Text.allBlank s = true) :
    (scanFrom lex fuel state before delta s).2.isLiteral = false := by
  -- By induction on the steps, each of which leaves white space behind.
  induction fuel generalizing state before delta s with
  | zero =>
    unfold scanFrom
    exact hstate
  | succ fuel ih =>
    cases s with
    | nil =>
      unfold scanFrom
      exact hstate
    | cons c rest =>
      have hblank := Text.allBlank_iff.mp hs
      unfold scanFrom
      cases hmove : move lex state before c rest with
      | stop => exact hstate
      | take length d next =>
        have hnext := move_blank h hstate (hblank c List.mem_cons_self) hmove
        refine ih hnext _ _ (Text.allBlank_iff.mpr ?_)
        intro e he
        exact hblank e (List.mem_of_mem_drop he)

/-- A line of white space ends in a literal only if it starts in one. -/
theorem scanLine_blank {lex : Lexicon} (h : lex.Marked) {start : Carry}
    (hstart : start.isLiteral = false) {line : List Char} (hline : Text.allBlank line = true) :
    (scanLine lex start line).2.isLiteral = false := by
  have hend := scanFrom_blank h line.length hstart none 0 hline
  unfold scanLine
  dsimp only
  cases hstate : (scanFrom lex line.length start none 0 line).2 with
  | literal d =>
    rw [hstate] at hend
    exact Bool.noConfusion hend
  | code => rfl
  | blockComment => rfl

end CodeTidy.Whitespace
