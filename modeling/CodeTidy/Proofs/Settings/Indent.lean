import CodeTidy.Proofs.Text.Blank
import CodeTidy.Settings.Basic

/-!
# The unit of indentation

One level of indentation is a tab or blanks, so it is white space under all settings.
-/

namespace CodeTidy.Settings

/-- A unit of indentation is white space. -/
theorem allBlank_indentUnit (settings : Settings) :
    Text.allBlank settings.indentUnit = true := by
  rw [Text.allBlank_iff]
  intro c hc
  unfold indentUnit at hc
  split_ifs at hc
  · rw [List.mem_singleton.mp hc]
    decide
  · rw [List.eq_of_mem_replicate hc]
    decide

/-- A unit of indentation does not break a line. -/
theorem lineBreak_not_mem_indentUnit (settings : Settings) : '\n' ∉ settings.indentUnit := by
  unfold Settings.indentUnit
  split_ifs
  · decide
  · intro h
    exact absurd (List.eq_of_mem_replicate h) (by decide)

end CodeTidy.Settings
