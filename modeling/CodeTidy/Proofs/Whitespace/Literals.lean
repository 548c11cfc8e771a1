import CodeTidy.Backend.Builtin
import CodeTidy.Proofs.Settings.Indent
import CodeTidy.Proofs.Whitespace.Lines
import CodeTidy.Proofs.Whitespace.Scanning
import CodeTidy.Settings.Resolve

/-!
# Literals over several lines

The white space inside a literal belongs to the literal. A line that starts inside one comes out as
it is, and a line that ends inside one keeps what stands behind its leading white space. Indentation
breaks the second rule in one place: a line that leaves a block comment and opens a literal loses
the white space at its end, although the same line does not when it starts in code.
-/

namespace CodeTidy.Whitespace

/-- The line goes from a block comment into a literal, and white space at its end belongs to the
literal. -/
def ScannedLine.EndsClipped (l : ScannedLine) : Prop :=
  l.entry = .blockComment ∧ l.exit.isLiteral = true ∧
    ∃ c, l.text.getLast? = some c ∧ Text.isBlank c = true

/-- Nothing is on the line, and no literal reaches into it or out of it. -/
def ScannedLine.Spare (l : ScannedLine) : Prop :=
  l.entry.isLiteral = false ∧ l.exit.isLiteral = false ∧ Text.allBlank l.text = true

/-- What comes out of a line, where some lines lose the white space at their end. -/
structure Keeps (Loses : ScannedLine → Prop) (l : ScannedLine) (out : List Char) : Prop where
  /-- A line that starts inside a literal is not changed. -/
  inside : l.entry.isLiteral = true → out = l.text
  /-- A line that ends inside a literal keeps all that stands behind its leading white space. -/
  opening : l.exit.isLiteral = true → (Text.trimStart out = Text.trimStart l.text ↔ ¬Loses l)
  /-- Every line keeps all but the white space at its ends. -/
  middle : Text.trim out = Text.trim l.text

/-- A line that is kept as it is keeps what it must. -/
theorem Keeps.self {Loses : ScannedLine → Prop} {l : ScannedLine}
    (h : l.exit.isLiteral = true → ¬Loses l) : Keeps Loses l l.text :=
  ⟨fun _ => rfl, fun hexit => iff_of_true rfl (h hexit), rfl⟩

/-! ## Cleaning -/

/-- Cleaning goes on in the state of the scan. -/
theorem cleanLine_carry (lex : Lexicon) (st : Progress) (raw : List Char) :
    (cleanLine (some lex) st raw).2.carry = (scanLine lex st.carry raw).2 := rfl

/-- Cleaning a line cuts white space off its end, unless it starts or ends inside a literal. -/
theorem cleanLine_keeps (lex : Lexicon) (st : Progress) (raw : List Char) :
    let l : ScannedLine := ⟨st.carry, raw, (scanLine lex st.carry raw).2⟩
    let line := (cleanLine (some lex) st raw).1
    Keeps (fun _ => False) l line.text ∧ (line.isSpare = true → l.Spare) := by
  intro l line
  by_cases hliteral : (l.entry.isLiteral || l.exit.isLiteral) = true
  · have hline : line = ⟨l.text, true⟩ := if_pos hliteral
    rw [hline]
    exact ⟨.self fun _ => not_false, fun hspare => Bool.noConfusion hspare⟩
  · have hline : line = ⟨Text.trimEnd l.text, false⟩ := if_neg hliteral
    rw [Bool.not_eq_true, Bool.or_eq_false_iff] at hliteral
    obtain ⟨hentry, hexit⟩ := hliteral
    rw [hline]
    refine ⟨⟨?_, ?_, Text.trim_trimEnd l.text⟩, ?_⟩
    · simp [hentry]
    · simp [hexit]
    · intro hspare
      refine ⟨hentry, hexit, ?_⟩
      have hempty : Text.trimEnd l.text = [] := List.isEmpty_iff.mp hspare
      rw [← Text.trim_eq_nil_iff, ← Text.trim_trimEnd, hempty]
      rfl

/-! ## Indenting -/

/-- Indenting goes on in the state of the scan. -/
theorem reindentLine_carry (unit : List Char) (lex : Lexicon) (st : Progress) (raw : List Char) :
    (reindentLine unit lex st raw).2.carry = (scanLine lex st.carry raw).2 := by
  unfold reindentLine
  dsimp only
  split
  · rfl
  · rfl
  · split_ifs <;> rfl

/-- What indenting leaves of a line that starts outside literals: the line trimmed, except that the
end of a line of code that opens a literal is not touched. -/
def ScannedLine.content (l : ScannedLine) : List Char :=
  if l.entry = .code ∧ l.exit.isLiteral = true then Text.trimStart l.text else Text.trim l.text

/-- Nothing is left of a line of white space, and only of such a line. -/
theorem ScannedLine.content_eq_nil_iff {l : ScannedLine} :
    l.content = [] ↔ Text.allBlank l.text = true := by
  unfold content
  split_ifs
  · exact Text.trimStart_eq_nil_iff
  · exact Text.trim_eq_nil_iff

/-- What is left of a line starts where the line does, -/
theorem ScannedLine.trimStart_content (l : ScannedLine) : Text.trimStart l.content = l.content := by
  unfold content
  split_ifs
  · exact Text.trimStart_trimStart l.text
  · exact Text.trimStart_trim l.text

/-- and it is the line up to white space at its ends. -/
theorem ScannedLine.trim_content (l : ScannedLine) : Text.trim l.content = Text.trim l.text := by
  unfold content
  split_ifs
  · exact Text.trim_trimStart l.text
  · exact Text.trim_eq_self (Text.trim_trimmed l.text)

/-- What is left of a line into a literal is all behind its leading white space, unless the line
ends clipped. -/
theorem ScannedLine.content_eq_trimStart_iff {l : ScannedLine} (hentry : l.entry.isLiteral = false)
    (hexit : l.exit.isLiteral = true) (hblank : Text.allBlank l.text = false) :
    l.content = Text.trimStart l.text ↔ ¬l.EndsClipped := by
  unfold content EndsClipped
  cases hcarry : l.entry with
  | literal d =>
    rw [hcarry] at hentry
    exact Bool.noConfusion hentry
  | code =>
    rw [if_pos ⟨rfl, hexit⟩]
    simp
  | blockComment =>
    rw [if_neg (by simp), Text.trim_eq_trimStart_iff hblank]
    simp [hexit]

/-- Indentation is white space in front of a text. -/
theorem exists_indented {unit : List Char} (hunit : Text.allBlank unit = true) (depth : ℕ)
    (text : List Char) : ∃ g, Text.allBlank g = true ∧ indented unit depth text = g ++ text :=
  ⟨_, Text.allBlank_replicate hunit depth, rfl⟩

/-- What is left of a line that starts outside literals comes out behind white space. -/
theorem reindentLine_spec {unit : List Char} (hunit : Text.allBlank unit = true) (lex : Lexicon)
    (depth : ℕ) {carry : Carry} (hcarry : carry.isLiteral = false) (raw : List Char) :
    let l : ScannedLine := ⟨carry, raw, (scanLine lex carry raw).2⟩
    ∃ g, Text.allBlank g = true ∧ (reindentLine unit lex ⟨depth, carry⟩ raw).1 =
      ⟨if l.content.isEmpty then [] else g ++ l.content, false⟩ := by
  intro l
  cases carry with
  | literal d => exact Bool.noConfusion hcarry
  | blockComment =>
    have hcontent : l.content = Text.trim raw := if_neg fun h => Carry.noConfusion h.1
    unfold reindentLine
    dsimp only
    rw [← hcontent]
    split_ifs with hempty hstar
    · exact ⟨[], rfl, rfl⟩
    · -- One blank more stands in front of an asterisk.
      obtain ⟨g, hg, hline⟩ := exists_indented hunit
        (shiftDepth depth (scanLine lex .blockComment raw).1) (' ' :: l.content)
      have hspace : Text.allBlank [' '] = true := by decide
      refine ⟨g ++ [' '], Text.allBlank_append hg hspace, ?_⟩
      rw [hline, List.append_assoc, List.singleton_append]
    · obtain ⟨g, hg, hline⟩ := exists_indented hunit
        (shiftDepth depth (scanLine lex .blockComment raw).1) l.content
      exact ⟨g, hg, by rw [hline]⟩
  | code =>
    have hcontent : l.content = if (scanLine lex .code raw).2.isLiteral then Text.trimStart raw
        else Text.trim raw := by
      unfold ScannedLine.content
      simp [l]
    unfold reindentLine
    dsimp only
    rw [← hcontent]
    obtain ⟨g, hg, hline⟩ := exists_indented hunit
      (depth - (l.content.takeWhile isCloser).length) l.content
    refine ⟨g, hg, ?_⟩
    rw [← hline]
    split_ifs <;> rfl

/-- Indenting a line keeps what it must, except that a line from a block comment into a literal
loses the white space at its end. -/
theorem reindentLine_keeps {unit : List Char} (hunit : Text.allBlank unit = true) {lex : Lexicon}
    (hlex : lex.Marked) (st : Progress) (raw : List Char) :
    let l : ScannedLine := ⟨st.carry, raw, (scanLine lex st.carry raw).2⟩
    let line := (reindentLine unit lex st raw).1
    Keeps ScannedLine.EndsClipped l line.text ∧ (line.isSpare = true → l.Spare) := by
  obtain ⟨depth, carry⟩ := st
  intro l line
  cases hcarry : carry.isLiteral with
  | true =>
    cases carry with
    | code | blockComment => exact Bool.noConfusion hcarry
    | literal d => exact ⟨.self fun _ h => Carry.noConfusion h.1, fun h => Bool.noConfusion h⟩
  | false =>
    obtain ⟨g, hg, hspec⟩ := reindentLine_spec hunit lex depth hcarry raw
    have hline : line = ⟨if l.content.isEmpty then [] else g ++ l.content, false⟩ := hspec
    have hentry : l.entry.isLiteral = false := hcarry
    rw [hline]
    split_ifs with hempty
    · -- A line of white space ends outside literals.
      have hblank := ScannedLine.content_eq_nil_iff.mp (List.isEmpty_iff.mp hempty)
      have hexit : l.exit.isLiteral = false := scanLine_blank hlex hcarry hblank
      refine ⟨⟨by simp [hentry], by simp [hexit], ?_⟩, fun _ => ⟨hentry, hexit, hblank⟩⟩
      exact (Text.trim_eq_nil_iff.mpr hblank).symm
    · have hsome : l.content ≠ [] := fun h => hempty (List.isEmpty_iff.mpr h)
      have hblank : Text.allBlank l.text = false := by
        rw [← Bool.not_eq_true]
        exact fun h => hsome (ScannedLine.content_eq_nil_iff.mpr h)
      refine ⟨⟨by simp [hentry], ?_, ?_⟩, by simp [Line.isSpare, hsome]⟩
      · intro hexit
        rw [Text.trimStart_blank_append hg, l.trimStart_content]
        exact ScannedLine.content_eq_trimStart_iff hentry hexit hblank
      · rw [Text.trim_blank_append hg, l.trim_content]

/-! ## Texts -/

/-- The lines that come out of a text are those of the text, each with what it keeps, without some
spare lines. -/
theorem emits_of_keeps {lex : Lexicon} {f : Progress → List Char → Line × Progress}
    {Loses : ScannedLine → Prop}
    (hcarry : ∀ st raw, (f st raw).2.carry = (scanLine lex st.carry raw).2)
    (hkeeps : ∀ st raw, let l : ScannedLine := ⟨st.carry, raw, (scanLine lex st.carry raw).2⟩
      Keeps Loses l (f st raw).1.text ∧ ((f st raw).1.isSpare = true → l.Spare))
    (lines : List (List Char)) :
    Emits (Keeps Loses) ScannedLine.Spare (scanned lex .code lines)
      (finish (mapLines f {} lines)) := by
  have hmapped : Emits (fun l line => Keeps Loses l line.text ∧ (line.isSpare = true → l.Spare))
      (fun _ => False) (scanned lex .code lines) (mapLines f {} lines) :=
    mapLines_emits hcarry hkeeps lines {}
  exact hmapped.comp (finish_emits _) (fun _ _ _ h h' => h' ▸ h.1) (fun _ h => h.elim)
    fun _ _ h h' => h.2 h'

/-- Tidying a text of a language with literals treats each line on its own, and leaves out only
lines of white space that no literal reaches. A line that starts inside a literal comes out as it
is. A line that ends inside one comes out with all that stands behind its leading white space, if
the text is cleaned; and if it is indented, the only lines that lose something there are those that
go from a block comment into a literal and end in white space, which is cut off. -/
theorem tidied_keeps_literals (r : Request) (lex : Lexicon)
    (h : Lexicon.ofLanguage? r.language = some lex) :
    let lines := Text.lines r.code.toList
    let indentedLines := finish (mapLines (reindentLine r.settings.indentUnit lex) {} lines)
    let cleanedLines := finish (mapLines (cleanLine (some lex)) {} lines)
    Backend.tidied r = .ok (String.ofList (((if braceLanguages.contains r.language
      then indentedLines else cleanedLines).map (· ++ ['\n'])).flatten)) ∧
    Emits (Keeps ScannedLine.EndsClipped) ScannedLine.Spare (scanned lex .code lines)
      indentedLines ∧
    Emits (Keeps fun _ => False) ScannedLine.Spare (scanned lex .code lines) cleanedLines := by
  intro lines indentedLines cleanedLines
  refine ⟨?_, ?_, ?_⟩
  · unfold Backend.tidied tidy tidyLines
    rw [h]
  · exact emits_of_keeps (reindentLine_carry _ lex)
      (reindentLine_keeps r.settings.allBlank_indentUnit (marked_of_language h)) lines
  · exact emits_of_keeps (cleanLine_carry lex) (cleanLine_keeps lex) lines

/-- A literal over three lines of code comes out as it is, with white space at the ends of its lines
and an empty line. -/
theorem tidied_keeps_literals_rust :
    let r : Request := ⟨"  s = \"a  \n\n b\"  ", "rust", Settings.resolve {} "rust"⟩
    let out := ["s = \"a  ".toList, [], " b\"  ".toList]
    Lexicon.ofLanguage? r.language = some .rust ∧
      Backend.tidied r = .ok (String.ofList (out.map (· ++ ['\n'])).flatten) ∧
      Emits (Keeps ScannedLine.EndsClipped) ScannedLine.Spare
        (scanned .rust .code (Text.lines r.code.toList)) out := by
  intro r out
  have h : Lexicon.ofLanguage? r.language = some .rust := rfl
  obtain ⟨hout, hindented, -⟩ := tidied_keeps_literals r .rust h
  have hlines : finish (mapLines (reindentLine r.settings.indentUnit .rust) {}
      (Text.lines r.code.toList)) = out := by decide +kernel
  rw [hlines] at hout hindented
  exact ⟨h, hout, hindented⟩

/-- Behind a block comment a literal is opened, and the white space at the end of the line, which
belongs to the literal, is lost. -/
theorem tidied_clips_literal :
    let r : Request := ⟨"/*\n*/ s = \"a  \nb\"", "c", Settings.resolve {} "c"⟩
    let out := ["/*".toList, " */ s = \"a".toList, "b\"".toList]
    Lexicon.ofLanguage? r.language = some .cLike ∧
      Backend.tidied r = .ok (String.ofList (out.map (· ++ ['\n'])).flatten) ∧
      ∃ l ∈ scanned .cLike .code (Text.lines r.code.toList),
        l.exit.isLiteral = true ∧ Text.trimStart l.text ∉ out.map Text.trimStart := by
  intro r out
  refine ⟨rfl, congrArg Except.ok (by decide +kernel), ?_⟩
  decide +kernel

end CodeTidy.Whitespace
