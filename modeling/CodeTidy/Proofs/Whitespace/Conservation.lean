import CodeTidy.Proofs.Whitespace.Literals

/-!
# Tidying moves nothing to another line

Each line of a text comes out as one line with the same text between white space, or it is blank and
is left out. In languages that are not indented by brackets the white space in front of a line stays
as well.
-/

namespace CodeTidy.Whitespace

/-- A line comes out with the text that it has between white space, and behind the same white space
if `exact` is set. -/
structure Retains (exact : Bool) (raw out : List Char) : Prop where
  /-- The text between white space is the same. -/
  middle : Text.trim out = Text.trim raw
  /-- A line with some text keeps the white space in front of it. -/
  start : exact = true → Text.allBlank raw = false →
    out.takeWhile Text.isBlank = raw.takeWhile Text.isBlank

/-- A line that comes out is blank if the line of the text is. -/
theorem Retains.allBlank_eq {exact : Bool} {raw out : List Char} (h : Retains exact raw out) :
    Text.allBlank out = Text.allBlank raw := by
  rw [Bool.eq_iff_iff, ← Text.trim_eq_nil_iff, ← Text.trim_eq_nil_iff, h.middle]

/-- Cutting the end of a line with some text leaves the white space in front of it. -/
theorem takeWhile_trimEnd {s : List Char} (h : Text.allBlank s = false) :
    (Text.trimEnd s).takeWhile Text.isBlank = s.takeWhile Text.isBlank := by
  obtain ⟨g, hg, hs⟩ := Text.exists_trimEnd s
  -- The white space in front ends within what is left, so nothing behind that is looked at.
  have hstop : ∃ c ∈ Text.trimEnd s, Text.isBlank c ≠ true := by
    by_contra hnone
    push Not at hnone
    have hall := Text.allBlank_append (Text.allBlank_iff.mpr hnone) hg
    rw [← hs, h] at hall
    exact Bool.noConfusion hall
  conv_rhs => rw [hs]
  rw [List.takeWhile_append, if_neg]
  intro hlength
  obtain ⟨c, hc, hnot⟩ := hstop
  have hself := (List.takeWhile_prefix Text.isBlank (l := Text.trimEnd s)).eq_of_length hlength
  exact hnot (List.takeWhile_eq_self_iff.mp hself c hc)

/-! ## Line by line -/

/-- Cleaning a line keeps its text and the white space in front of it, and only a blank line may be
left out. -/
theorem cleanLine_retains (lex : Option Lexicon) (st : Progress) (raw : List Char) :
    Retains true raw (cleanLine lex st raw).1.text ∧
      ((cleanLine lex st raw).1.isSpare = true → Text.allBlank raw = true) := by
  have hcut : Retains true raw (Text.trimEnd raw) ∧
      ((⟨Text.trimEnd raw, false⟩ : Line).isSpare = true → Text.allBlank raw = true) := by
    refine ⟨⟨Text.trim_trimEnd raw, fun _ => takeWhile_trimEnd⟩, ?_⟩
    intro hspare
    have hempty : Text.trimEnd raw = [] := List.isEmpty_iff.mp hspare
    rw [← Text.trim_eq_nil_iff, ← Text.trim_trimEnd, hempty]
    rfl
  unfold cleanLine
  cases lex with
  | none => exact hcut
  | some lex =>
    dsimp only
    split_ifs
    · exact ⟨⟨rfl, fun _ _ => rfl⟩, nofun⟩
    · exact hcut

/-- Indenting a line keeps its text, and only a blank line may be left out. -/
theorem reindentLine_retains {unit : List Char} (hunit : Text.allBlank unit = true) {lex : Lexicon}
    (hlex : lex.Marked) (st : Progress) (raw : List Char) :
    Retains false raw (reindentLine unit lex st raw).1.text ∧
      ((reindentLine unit lex st raw).1.isSpare = true → Text.allBlank raw = true) := by
  obtain ⟨hkeeps, hspare⟩ := reindentLine_keeps hunit hlex st raw
  exact ⟨⟨hkeeps.middle, nofun⟩, fun h => (hspare h).2.2⟩

/-! ## Texts -/

/-- If each line keeps its text, and only blank ones may be left out, so it is with all lines. -/
theorem finish_retains {exact : Bool} {f : Progress → List Char → Line × Progress}
    (h : ∀ st raw, Retains exact raw (f st raw).1.text ∧
      ((f st raw).1.isSpare = true → Text.allBlank raw = true)) (lines : List (List Char)) :
    Emits (Retains exact) (fun raw => Text.allBlank raw = true) lines
      (finish (mapLines f {} lines)) := by
  have hmapped : Emits (fun raw (line : Line) => Retains exact raw line.text ∧
      (line.isSpare = true → Text.allBlank raw = true)) (fun _ => False) lines
      (mapLines f {} lines) := mapLines_shows h lines {}
  exact hmapped.comp (finish_emits _) (fun _ _ _ hline hout => hout ▸ hline.1) (fun _ h => h.elim)
    fun _ _ hline hspare => hline.2 hspare

/-- The lines of a text come out with their texts, blank ones left out perhaps, and behind the same
white space in a language that is not indented by brackets. -/
theorem tidyLines_retains {unit : List Char} (hunit : Text.allBlank unit = true)
    (language : String) (lines : List (List Char)) :
    Emits (Retains (!braceLanguages.contains language)) (fun raw => Text.allBlank raw = true) lines
      (tidyLines unit language lines) := by
  -- To keep more than is asked for is to keep enough.
  have hclean : ∀ (lex : Option Lexicon) (st : Progress) (raw : List Char),
      Retains (!braceLanguages.contains language) raw (cleanLine lex st raw).1.text ∧
        ((cleanLine lex st raw).1.isSpare = true → Text.allBlank raw = true) := by
    intro lex st raw
    obtain ⟨hretains, hspare⟩ := cleanLine_retains lex st raw
    exact ⟨⟨hretains.middle, fun _ => hretains.start rfl⟩, hspare⟩
  unfold tidyLines
  split
  · rename_i lex hlex
    split_ifs with hbrace
    · rw [hbrace]
      exact finish_retains (reindentLine_retains hunit (marked_of_language hlex)) lines
    · exact finish_retains (hclean (some lex)) lines
  · exact finish_retains (hclean none) lines

/-- Tidying a text of any language moves nothing to another line. The lines with some text come out
in their order, each with the text that it has between white space. No line is put in: the lines
that come out are some of those of the text, up to white space at their ends. In a language that is
not indented by brackets each line with some text keeps the white space in front of it. -/
theorem tidied_moves_nothing (r : Request) :
    let lines := Text.lines r.code.toList
    let out := tidyLines r.settings.indentUnit r.language lines
    Backend.tidied r = .ok (String.ofList (out.map (· ++ ['\n'])).flatten) ∧
    (out.filter (!Text.allBlank ·)).map Text.trim =
      (lines.filter (!Text.allBlank ·)).map Text.trim ∧
    (out.map Text.trim).Sublist (lines.map Text.trim) ∧
    (r.language ∉ braceLanguages →
      (out.filter (!Text.allBlank ·)).map (·.takeWhile Text.isBlank) =
        (lines.filter (!Text.allBlank ·)).map (·.takeWhile Text.isBlank)) := by
  intro lines out
  have hout : Emits (Retains (!braceLanguages.contains r.language))
      (fun raw => Text.allBlank raw = true) lines out :=
    tidyLines_retains r.settings.allBlank_indentUnit r.language lines
  have hselect : ∀ raw line, Retains (!braceLanguages.contains r.language) raw line →
      (!Text.allBlank line) = !Text.allBlank raw :=
    fun _ _ h => congrArg Bool.not h.allBlank_eq
  have hskip : ∀ raw, Text.allBlank raw = true → (!Text.allBlank raw) = false :=
    fun _ h => congrArg Bool.not h
  refine ⟨rfl, ?_, ?_, ?_⟩
  · exact hout.filter_map hselect (fun _ _ h _ => h.middle) hskip
  · exact hout.sublist fun _ _ h => h.middle
  · intro hbrace
    refine hout.filter_map hselect (fun raw _ h hraw => h.start ?_ ?_) hskip
    · simpa using hbrace
    · simpa using hraw

/-- In a language without brackets a line loses the white space at its end and keeps that in front,
and of two blank lines one goes. -/
theorem tidied_moves_nothing_python :
    let r : Request := ⟨"if a:  \n\n\n\tb = 1", "python", Settings.resolve {} "python"⟩
    let out := ["if a:".toList, [], "\tb = 1".toList]
    r.language ∉ braceLanguages ∧
      Backend.tidied r = .ok (String.ofList (out.map (· ++ ['\n'])).flatten) ∧
      (out.map Text.trim).Sublist ((Text.lines r.code.toList).map Text.trim) ∧
      (out.filter (!Text.allBlank ·)).map (·.takeWhile Text.isBlank) =
        ((Text.lines r.code.toList).filter (!Text.allBlank ·)).map
          (·.takeWhile Text.isBlank) := by
  intro r out
  have hbrace : r.language ∉ braceLanguages := by decide
  obtain ⟨htidied, -, hsublist, hstart⟩ := tidied_moves_nothing r
  have hlines : tidyLines r.settings.indentUnit r.language (Text.lines r.code.toList) = out := by
    decide +kernel
  rw [hlines] at htidied hsublist hstart
  exact ⟨hbrace, htidied, hsublist, hstart hbrace⟩

end CodeTidy.Whitespace
