import CodeTidy.Proofs.Whitespace.Stability
import Mathlib.Data.List.Forall2

/-!
# Indenting does not look at the indentation

Two texts that differ only in the white space in front of lines which the scan enters outside of
literals are indented alike. Line by line the scan of both is in the same state, and what is left of
a line without the white space in front of it is all that indenting looks at.
-/

namespace CodeTidy.Whitespace

/-- The second line is the scanned one, up to the white space in front of it if no literal reaches
into it. -/
def ScannedLine.IndentedAs (l : ScannedLine) (raw : List Char) : Prop :=
  if l.entry.isLiteral then raw = l.text else Text.trimStart raw = Text.trimStart l.text

variable {lex : Lexicon}

/-- White space in front of a line makes no difference to the scan of the line. -/
theorem scanLine_trimStart (h : lex.Legible) {start : Carry} (hstart : start.isLiteral = false)
    (raw : List Char) : scanLine lex start (Text.trimStart raw) = scanLine lex start raw := by
  obtain ⟨g, hg, hraw⟩ := Text.exists_trimStart raw
  have hscan := scanLine_between_blanks h (Carry.within_of_not_literal lex hstart) hg
    (show Text.allBlank [] = true from rfl) (Text.trimStart raw)
  rw [List.append_nil, ← hraw] at hscan
  exact hscan.symm

/-- The scan of a line that is indented in another way is the same. -/
theorem ScannedLine.IndentedAs.scanLine_eq (h : lex.Legible) {l : ScannedLine} {raw : List Char}
    (hraw : l.IndentedAs raw) : scanLine lex l.entry raw = scanLine lex l.entry l.text := by
  unfold IndentedAs at hraw
  split_ifs at hraw with hentry
  · rw [hraw]
  · rw [Bool.not_eq_true] at hentry
    rw [← scanLine_trimStart h hentry raw, hraw, scanLine_trimStart h hentry]

/-- A line that is indented in another way comes out the same, and so does the progress behind
it. -/
theorem reindentLine_indentedAs (h : lex.Legible) (unit : List Char) (st : Progress)
    {raw raw' : List Char}
    (hraw : ScannedLine.IndentedAs ⟨st.carry, raw, (scanLine lex st.carry raw).2⟩ raw') :
    reindentLine unit lex st raw' = reindentLine unit lex st raw := by
  have hscan := hraw.scanLine_eq h
  obtain ⟨depth, carry⟩ := st
  unfold ScannedLine.IndentedAs at hraw
  split_ifs at hraw with hcarry
  · rw [hraw]
  · rw [Bool.not_eq_true] at hcarry
    refine reindentLine_congr hcarry hscan ?_
    have htrim : Text.trim raw' = Text.trim raw := congrArg Text.trimEnd hraw
    unfold ScannedLine.content
    rw [hraw, htrim]

/-- Treating lines does not look at what treating a line does not look at. -/
theorem mapLines_indentedAs {f : Progress → List Char → Line × Progress}
    (hcarry : ∀ st raw, (f st raw).2.carry = (scanLine lex st.carry raw).2)
    (hf : ∀ st raw raw',
      ScannedLine.IndentedAs ⟨st.carry, raw, (scanLine lex st.carry raw).2⟩ raw' →
        f st raw' = f st raw)
    {lines lines' : List (List Char)} (st : Progress)
    (h : List.Forall₂ ScannedLine.IndentedAs (scanned lex st.carry lines) lines') :
    mapLines f st lines' = mapLines f st lines := by
  induction lines generalizing st lines' with
  | nil =>
    cases h
    rfl
  | cons l ls ih =>
    unfold scanned at h
    cases h with
    | cons hfirst hrest =>
      rw [← hcarry] at hrest
      rw [mapLines_cons, mapLines_cons, hf st l _ hfirst, ih _ hrest]

/-- The scan enters the lines of both texts in the same states. -/
theorem scanned_indentedAs (h : lex.Legible) {lines lines' : List (List Char)} {entry : Carry}
    (hlines : List.Forall₂ ScannedLine.IndentedAs (scanned lex entry lines) lines') :
    (scanned lex entry lines').map ScannedLine.entry =
      (scanned lex entry lines).map ScannedLine.entry := by
  induction lines generalizing entry lines' with
  | nil =>
    cases hlines
    rfl
  | cons l ls ih =>
    unfold scanned at hlines
    cases hlines with
    | cons hfirst hrest =>
      have hscan := hfirst.scanLine_eq h
      unfold scanned
      dsimp only at hscan ⊢
      rw [List.map_cons, List.map_cons, hscan, ih hrest]

/-- Two texts in a language of brackets that differ in nothing but the white space in front of some
lines, none of which starts inside a literal, are tidied to the same text, whatever the unit of
indentation is. It does not matter in which of the two texts the literals are looked for, as the
scan enters the lines of both in the same states. -/
theorem tidied_ignores_indentation {language : String} (hbrace : language ∈ braceLanguages)
    {lex : Lexicon} (hlex : Lexicon.ofLanguage? language = some lex) {s t : String}
    (h : List.Forall₂ ScannedLine.IndentedAs (scanned lex .code (Text.lines s.toList))
      (Text.lines t.toList)) :
    (∀ unit, tidy unit language t.toList = tidy unit language s.toList) ∧
    (∀ settings, Backend.tidied ⟨t, language, settings⟩ = Backend.tidied ⟨s, language, settings⟩) ∧
    (scanned lex .code (Text.lines t.toList)).map ScannedLine.entry =
      (scanned lex .code (Text.lines s.toList)).map ScannedLine.entry := by
  have hlegible := legible_of_language hlex
  have htidy : ∀ unit, tidy unit language t.toList = tidy unit language s.toList := by
    intro unit
    have hlines : mapLines (reindentLine unit lex) {} (Text.lines t.toList) =
        mapLines (reindentLine unit lex) {} (Text.lines s.toList) :=
      mapLines_indentedAs (reindentLine_carry unit lex)
        (fun st _ _ => reindentLine_indentedAs hlegible unit st) {} h
    unfold tidy tidyLines
    rw [hlex]
    dsimp only
    rw [if_pos (List.contains_iff_mem.mpr hbrace), if_pos (List.contains_iff_mem.mpr hbrace),
      hlines]
  refine ⟨htidy, ?_, scanned_indentedAs hlegible h⟩
  intro settings
  exact congrArg (fun text => Except.ok (String.ofList text)) (htidy settings.indentUnit)

/-- Lines of code and of a comment are moved, and a line inside a literal is not. -/
theorem tidied_ignores_indentation_rust :
    let s := "\x7b\n/*\n* c\n*/ \"a\n  b\" [\n\n]"
    let t := "  \x7b\n\t/*\n    * c\n  */ \"a\n  b\" [\n \n    ]"
    "rust" ∈ braceLanguages ∧ Lexicon.ofLanguage? "rust" = some .rust ∧
      List.Forall₂ ScannedLine.IndentedAs (scanned .rust .code (Text.lines s.toList))
        (Text.lines t.toList) ∧
      tidy "  ".toList "rust" t.toList = tidy "  ".toList "rust" s.toList := by
  intro s t
  have hbrace : "rust" ∈ braceLanguages := by decide
  have hlex : Lexicon.ofLanguage? "rust" = some .rust := rfl
  have hlines : List.Forall₂ ScannedLine.IndentedAs (scanned .rust .code (Text.lines s.toList))
      (Text.lines t.toList) := by
    unfold ScannedLine.IndentedAs
    decide +kernel
  exact ⟨hbrace, hlex, hlines, (tidied_ignores_indentation hbrace hlex hlines).1 "  ".toList⟩

end CodeTidy.Whitespace
