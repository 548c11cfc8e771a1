import CodeTidy.Proofs.Whitespace.Literals
import CodeTidy.Proofs.Whitespace.Rescanning
import Mathlib.Data.List.Chain

/-!
# Tidying twice is tidying once

A line that has been treated is treated again in the state in which it was, because spare lines, the
only ones that are left out, do not change the state. The scan makes of the line what it made of it
before, so the line does not change any more, and no further line is spare.
-/

namespace CodeTidy.Whitespace

/-! ## Lines that are kept -/

/-- The second line may follow the first: it is not spare, or there is something on the first. -/
def MayFollow (l l' : Line) : Prop := l'.isSpare = true → l.text ≠ []

/-- No line is spare at the top of the lines or behind an empty one. The top is like an empty
line. -/
def Tight (lines : List Line) : Prop := List.IsChain MayFollow (⟨[], true⟩ :: lines)

/-- A spare line is dropped at the top and behind an empty line. -/
theorem dropRuns_go_cons (done : List Line) (l : Line) (ls : List Line) :
    dropRuns.go done (l :: ls) =
      if l.isSpare && (done.headD ⟨[], true⟩).text.isEmpty then dropRuns.go done ls
      else dropRuns.go (l :: done) ls := by
  cases done <;> rfl

/-- Dropping runs of spare lines leaves lines with no runs, and such lines alone. -/
theorem dropRuns_spec (lines : List Line) :
    Tight (dropRuns lines) ∧ (Tight lines → dropRuns lines = lines) := by
  -- What is kept depends on the last line kept so far, or on the top.
  have hgo : ∀ (lines done : List Line), ∃ out, dropRuns.go done lines = done.reverse ++ out ∧
      List.IsChain MayFollow (done.headD ⟨[], true⟩ :: out) ∧
      (List.IsChain MayFollow (done.headD ⟨[], true⟩ :: lines) → out = lines) := by
    intro lines
    induction lines with
    | nil => exact fun done => ⟨[], by simp [dropRuns.go], .singleton _, fun _ => rfl⟩
    | cons l ls ih =>
      intro done
      rw [dropRuns_go_cons]
      split_ifs with hspare
      · obtain ⟨out, hout, htight, -⟩ := ih done
        refine ⟨out, hout, htight, fun hchain => ?_⟩
        rw [Bool.and_eq_true, List.isEmpty_iff] at hspare
        exact absurd hspare.2 ((List.isChain_cons_cons.mp hchain).1 hspare.1)
      · obtain ⟨out, hout, htight, hself⟩ := ih (l :: done)
        have hfollow : MayFollow (done.headD ⟨[], true⟩) l := by
          intro hl hempty
          rw [hl, hempty] at hspare
          exact hspare rfl
        refine ⟨l :: out, by rw [hout]; simp, List.isChain_cons_cons.mpr ⟨hfollow, htight⟩, ?_⟩
        intro hchain
        rw [hself (List.isChain_cons_cons.mp hchain).2]
  obtain ⟨out, hout, htight, hself⟩ := hgo lines []
  have heq : dropRuns lines = out := hout
  rw [heq]
  exact ⟨htight, hself⟩

/-- The lines that are kept are all kept again. -/
theorem kept_kept (lines : List Line) : kept (kept lines) = kept lines := by
  have htight : Tight (kept lines ++ (dropRuns lines).rtakeWhile Line.isSpare) := by
    unfold kept
    rw [List.rdropWhile_append_rtakeWhile]
    exact (dropRuns_spec lines).1
  have hkept : Tight (kept lines) := by
    unfold Tight at htight ⊢
    rw [← List.cons_append] at htight
    exact htight.left_of_append
  calc kept (kept lines) = (kept lines).rdropWhile Line.isSpare :=
        congrArg (List.rdropWhile Line.isSpare) ((dropRuns_spec (kept lines)).2 hkept)
    _ = kept lines := List.rdropWhile_idempotent _ _

/-! ## Treating lines again -/

/-- A line that has been treated is treated as before in the same state, and a spare line leaves the
state as it is. -/
structure Settles (f : Progress → List Char → Line × Progress) : Prop where
  again : ∀ st raw, f st (f st raw).1.text = f st raw
  spare : ∀ st raw, (f st raw).1.isSpare = true → (f st raw).2 = st

/-- Lines that are kept when they have been treated are the same when they are treated again. -/
theorem Settles.mapLines_kept {f : Progress → List Char → Line × Progress} (hf : Settles f)
    {lines : List (List Char)} {st : Progress} {out : List Line}
    (h : Emits (fun l l' => l' = l) (fun l => l.isSpare = true) (mapLines f st lines) out) :
    mapLines f st (out.map (·.text)) = out := by
  induction lines generalizing st out with
  | nil =>
    cases h
    rfl
  | cons l ls ih =>
    rw [mapLines_cons] at h
    cases h with
    | @emit _ y _ out hy hrest =>
      rw [List.map_cons, mapLines_cons, hy, hf.again, ih hrest]
    | skip hspare hrest =>
      rw [hf.spare st l hspare] at hrest
      exact ih hrest

/-- Lines that come out are the same when they are treated again. -/
theorem Settles.finish_again {f : Progress → List Char → Line × Progress} (hf : Settles f)
    (lines : List (List Char)) :
    finish (mapLines f {} (finish (mapLines f {} lines))) = finish (mapLines f {} lines) := by
  have hagain := hf.mapLines_kept (kept_emits (mapLines f {} lines))
  calc finish (mapLines f {} (finish (mapLines f {} lines)))
      = finish (kept (mapLines f {} lines)) := congrArg finish hagain
    _ = (kept (kept (mapLines f {} lines))).map (·.text) := rfl
    _ = finish (mapLines f {} lines) := by rw [kept_kept]; rfl

/-! ## Cleaning -/

/-- A line of white space leaves the scan where it is, outside of literals. -/
theorem scanLine_of_blank {lex : Lexicon} (h : lex.Legible) {start : Carry}
    (hstart : start.isLiteral = false) {line : List Char} (hline : Text.allBlank line = true) :
    scanLine lex start line = (0, start) := by
  have hscan := scanLine_between_blanks h (Carry.within_of_not_literal lex hstart) hline
    (show Text.allBlank [] = true from rfl) []
  rw [List.append_nil, List.append_nil] at hscan
  rw [hscan]
  cases start with
  | literal d => exact Bool.noConfusion hstart
  | code | blockComment => rfl

/-- Cutting the end of a text twice is cutting it once. -/
theorem trimEnd_trimEnd (s : List Char) : Text.trimEnd (Text.trimEnd s) = Text.trimEnd s :=
  Text.trimEnd_eq_self fun _ hc => Text.trimEnd_last hc

/-- The end of a line that is cut makes no difference to the scan. -/
theorem scanLine_trimEnd {lex : Lexicon} (h : lex.Legible) {start : Carry}
    (hstart : start.isLiteral = false) (raw : List Char) :
    scanLine lex start (Text.trimEnd raw) = scanLine lex start raw := by
  obtain ⟨g, hg, hraw⟩ := Text.exists_trimEnd raw
  have hscan := scanLine_between_blanks h (Carry.within_of_not_literal lex hstart)
    (show Text.allBlank [] = true from rfl) hg (Text.trimEnd raw)
  rw [List.nil_append, ← hraw] at hscan
  exact hscan.symm

/-- Cleaning lines settles them. -/
theorem cleanLine_settles {lex : Option Lexicon} (h : ∀ l ∈ lex, l.Legible) :
    Settles (cleanLine lex) := by
  cases lex with
  | none =>
    refine ⟨fun st raw => ?_, fun _ _ _ => rfl⟩
    unfold cleanLine
    dsimp only
    rw [trimEnd_trimEnd]
  | some lex =>
    have hlex : lex.Legible := h lex rfl
    refine ⟨fun st raw => ?_, fun st raw hspare => ?_⟩
    · by_cases hliteral : (st.carry.isLiteral || (scanLine lex st.carry raw).2.isLiteral) = true
      · have hline : (cleanLine (some lex) st raw).1 = ⟨raw, true⟩ := if_pos hliteral
        rw [hline]
      · have hline : (cleanLine (some lex) st raw).1 = ⟨Text.trimEnd raw, false⟩ :=
          if_neg hliteral
        have hcarry : st.carry.isLiteral = false := by
          rw [Bool.not_eq_true, Bool.or_eq_false_iff] at hliteral
          exact hliteral.1
        rw [hline]
        unfold cleanLine
        dsimp only
        rw [scanLine_trimEnd hlex hcarry, if_neg hliteral, if_neg hliteral, trimEnd_trimEnd]
    · obtain ⟨hcarry, -, hblank⟩ := (cleanLine_keeps lex st raw).2 hspare
      unfold cleanLine
      dsimp only at hcarry hblank ⊢
      rw [scanLine_of_blank hlex hcarry hblank]

/-! ## Indenting -/

/-- What indenting makes of a line outside of literals depends only on the scan of the line and on
what is left of it. -/
theorem reindentLine_congr {unit : List Char} {lex : Lexicon} {depth : ℕ} {carry : Carry}
    (hcarry : carry.isLiteral = false) {raw raw' : List Char}
    (hscan : scanLine lex carry raw' = scanLine lex carry raw)
    (hcontent : ScannedLine.content ⟨carry, raw', (scanLine lex carry raw).2⟩ =
      ScannedLine.content ⟨carry, raw, (scanLine lex carry raw).2⟩) :
    reindentLine unit lex ⟨depth, carry⟩ raw' = reindentLine unit lex ⟨depth, carry⟩ raw := by
  unfold ScannedLine.content at hcontent
  unfold reindentLine
  dsimp only at hcontent ⊢
  rw [hscan]
  cases carry with
  | literal d => exact Bool.noConfusion hcarry
  | blockComment =>
    have htrim : Text.trim raw' = Text.trim raw := by
      simpa using hcontent
    dsimp only
    rw [htrim]
  | code =>
    have hleft : (if (scanLine lex .code raw).2.isLiteral then Text.trimStart raw'
        else Text.trim raw') =
        if (scanLine lex .code raw).2.isLiteral then Text.trimStart raw else Text.trim raw := by
      simpa using hcontent
    dsimp only
    rw [hleft]

/-- White space in front of what is left of a line makes no difference to the scan, -/
theorem scanLine_content {lex : Lexicon} (h : lex.Legible) {carry : Carry}
    (hcarry : carry.isLiteral = false) {g : List Char} (hg : Text.allBlank g = true)
    (raw : List Char) (exit : Carry) :
    scanLine lex carry (g ++ ScannedLine.content ⟨carry, raw, exit⟩) = scanLine lex carry raw := by
  have hwithin := Carry.within_of_not_literal lex hcarry
  have hnone : Text.allBlank [] = true := rfl
  -- The line is what is left of it between white space.
  have hline : ∃ k k', Text.allBlank k = true ∧ Text.allBlank k' = true ∧
      raw = k ++ ScannedLine.content ⟨carry, raw, exit⟩ ++ k' := by
    unfold ScannedLine.content
    split_ifs
    · obtain ⟨k, hk, hraw⟩ := Text.exists_trimStart raw
      exact ⟨k, [], hk, hnone, by rw [List.append_nil]; exact hraw⟩
    · exact Text.exists_trim raw
  obtain ⟨k, k', hk, hk', hraw⟩ := hline
  have hnew := scanLine_between_blanks h hwithin hg hnone
    (ScannedLine.content ⟨carry, raw, exit⟩)
  have hold := scanLine_between_blanks h hwithin hk hk'
    (ScannedLine.content ⟨carry, raw, exit⟩)
  rw [List.append_nil] at hnew
  rw [← hraw] at hold
  rw [hnew, hold]

/-- and it is not left of the line again. -/
theorem content_content {g : List Char} (hg : Text.allBlank g = true) (carry : Carry)
    (raw : List Char) (exit : Carry) :
    ScannedLine.content ⟨carry, g ++ ScannedLine.content ⟨carry, raw, exit⟩, exit⟩ =
      ScannedLine.content ⟨carry, raw, exit⟩ := by
  unfold ScannedLine.content
  dsimp only
  split_ifs
  · rw [Text.trimStart_blank_append hg, Text.trimStart_trimStart]
  · rw [Text.trim_blank_append hg, Text.trim_eq_self (Text.trim_trimmed raw)]

/-- Indenting lines settles them. -/
theorem reindentLine_settles {unit : List Char} (hunit : Text.allBlank unit = true) {lex : Lexicon}
    (h : lex.Legible) (hmarked : lex.Marked) : Settles (reindentLine unit lex) := by
  refine ⟨?_, ?_⟩
  · rintro ⟨depth, carry⟩ raw
    cases hcarry : carry.isLiteral with
    | true =>
      cases carry with
      | code | blockComment => exact Bool.noConfusion hcarry
      | literal d => rfl
    | false =>
      obtain ⟨g, hg, hline⟩ := reindentLine_spec hunit lex depth hcarry raw
      -- The line is what is left of it behind white space, also if nothing is left.
      have htext : ∃ g', Text.allBlank g' = true ∧
          (reindentLine unit lex ⟨depth, carry⟩ raw).1.text =
            g' ++ ScannedLine.content ⟨carry, raw, (scanLine lex carry raw).2⟩ := by
        rw [hline]
        split_ifs with hempty
        · exact ⟨[], rfl, (List.isEmpty_iff.mp hempty).symm⟩
        · exact ⟨g, hg, rfl⟩
      obtain ⟨g', hg', htext⟩ := htext
      rw [htext]
      exact reindentLine_congr hcarry (scanLine_content h hcarry hg' raw _)
        (content_content hg' carry raw _)
  · intro st raw hspare
    obtain ⟨hcarry, -, hblank⟩ := (reindentLine_keeps hunit hmarked st raw).2 hspare
    obtain ⟨depth, carry⟩ := st
    have hscan := scanLine_of_blank h hcarry hblank
    dsimp only at hcarry hblank hscan
    unfold reindentLine
    dsimp only
    rw [hscan]
    cases carry with
    | literal d => exact Bool.noConfusion hcarry
    | blockComment =>
      dsimp only
      unfold shiftDepth
      rw [Int.add_zero, Int.toNat_natCast]
    | code =>
      have hempty : (Text.trim raw).isEmpty = true :=
        List.isEmpty_iff.mpr (Text.trim_eq_nil_iff.mpr hblank)
      dsimp only
      rw [hcarry, if_neg Bool.false_ne_true, if_pos hempty]

/-! ## Texts -/

/-- Tidying the lines of a text of any language, under any settings, makes lines that tidying does
not change. -/
theorem tidied_lines_stay (r : Request) :
    let once := tidyLines r.settings.indentUnit r.language (Text.lines r.code.toList)
    Backend.tidied r = .ok (String.ofList (once.map (· ++ ['\n'])).flatten) ∧
      tidyLines r.settings.indentUnit r.language once = once := by
  intro once
  refine ⟨rfl, ?_⟩
  have hunit := r.settings.allBlank_indentUnit
  have honce : once = tidyLines r.settings.indentUnit r.language (Text.lines r.code.toList) := rfl
  unfold tidyLines at honce ⊢
  split
  · rename_i lex hlex
    have hlegible := legible_of_language hlex
    rw [hlex] at honce
    split_ifs with hbrace
    · rw [honce]
      dsimp only
      rw [if_pos hbrace]
      exact (reindentLine_settles hunit hlegible (marked_of_language hlex)).finish_again _
    · rw [honce]
      dsimp only
      rw [if_neg hbrace]
      have hsettles : Settles (cleanLine (some lex)) :=
        cleanLine_settles fun _ hl => Option.some.inj hl ▸ hlegible
      exact hsettles.finish_again _
  · rename_i hlex
    rw [hlex] at honce
    rw [honce]
    have hsettles : Settles (cleanLine none) := cleanLine_settles nofun
    exact hsettles.finish_again _

/-- Text between brackets is indented, a blank line is dropped and one is kept, and all of it stays
when it is tidied again. -/
example :
    let once := tidyLines "  ".toList "c" (Text.lines "f( \n\n\n/*\n  *x\n*/1)".toList)
    once = ["f(".toList, [], "  /*".toList, "   *x".toList, " */1)".toList] ∧
      tidyLines "  ".toList "c" once = once := by
  decide +kernel

end CodeTidy.Whitespace
