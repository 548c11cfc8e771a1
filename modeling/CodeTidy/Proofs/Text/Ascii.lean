import CodeTidy.Text.Blank
import Mathlib.Data.List.Forall2
import Mathlib.Data.Nat.Notation
import Mathlib.Tactic.ByContra

/-!
# The case of ASCII letters

Changing the case of ASCII letters leaves every other character alone, and the last change decides.
What holds of all characters of ASCII is checked one by one.
-/

namespace CodeTidy.Text

/-- What holds of every character of ASCII, by its code point, holds of `c` if it is one. -/
theorem forall_ascii {P : Char → Prop} (hP : ∀ n < 128, P (Char.ofNat n)) {c : Char}
    (h : c.toNat < 128) : P c := by
  have hc := hP _ h
  rwa [Char.ofNat_toNat] at hc

/-- A character that is not one of ASCII is later than all letters of ASCII. -/
theorem not_le_of_not_ascii {c : Char} (h : ¬c.toNat < 128) {d : Char} (hd : d.toNat < 128) :
    ¬c ≤ d := by
  intro hle
  have hnat : c.toNat ≤ d.toNat := hle
  omega

/-- Lower case leaves a character that is not one of ASCII alone. -/
theorem lowerAscii_of_not_ascii {c : Char} (h : ¬c.toNat < 128) : lowerAscii c = c := by
  unfold lowerAscii
  rw [if_neg]
  simp [not_le_of_not_ascii h (d := 'Z') (by decide)]

/-- So does upper case. -/
theorem upperAscii_of_not_ascii {c : Char} (h : ¬c.toNat < 128) : upperAscii c = c := by
  unfold upperAscii
  rw [if_neg]
  simp [not_le_of_not_ascii h (d := 'z') (by decide)]

/-- The last change of case decides. -/
theorem case_case (c : Char) :
    upperAscii (upperAscii c) = upperAscii c ∧ upperAscii (lowerAscii c) = upperAscii c ∧
      lowerAscii (upperAscii c) = lowerAscii c ∧ lowerAscii (lowerAscii c) = lowerAscii c := by
  by_cases h : c.toNat < 128
  · exact forall_ascii (P := fun c => upperAscii (upperAscii c) = upperAscii c ∧
      upperAscii (lowerAscii c) = upperAscii c ∧ lowerAscii (upperAscii c) = lowerAscii c ∧
        lowerAscii (lowerAscii c) = lowerAscii c) (by decide +kernel) h
  · simp only [lowerAscii_of_not_ascii h, upperAscii_of_not_ascii h, and_self]

/-- A letter of ASCII is a character of ASCII. -/
theorem ascii_of_isAsciiLetter {c : Char} (h : isAsciiLetter c = true) : c.toNat < 128 := by
  by_contra hc
  unfold isAsciiLetter at h
  simp [not_le_of_not_ascii hc (d := 'Z') (by decide),
    not_le_of_not_ascii hc (d := 'z') (by decide)] at h

/-- Changing the case of a letter gives a letter. -/
theorem isAsciiLetter_case {c : Char} (h : isAsciiLetter c = true) :
    isAsciiLetter (upperAscii c) = true ∧ isAsciiLetter (lowerAscii c) = true := by
  refine forall_ascii (P := fun c => isAsciiLetter c = true →
    isAsciiLetter (upperAscii c) = true ∧ isAsciiLetter (lowerAscii c) = true) (by decide +kernel)
    (ascii_of_isAsciiLetter h) h

/-- What is a letter in upper case is a letter. -/
theorem isAsciiLetter_of_upper {c : Char} (h : isAsciiLetter (upperAscii c) = true) :
    isAsciiLetter c = true := by
  by_cases hc : c.toNat < 128
  · exact forall_ascii (P := fun c => isAsciiLetter (upperAscii c) = true →
      isAsciiLetter c = true) (by decide +kernel) hc h
  · rwa [upperAscii_of_not_ascii hc] at h

/-- What is no letter in lower case was not changed. -/
theorem lowerAscii_of_not_letter {c : Char} (h : isAsciiLetter (lowerAscii c) = false) :
    lowerAscii c = c := by
  by_cases hc : c.toNat < 128
  · exact forall_ascii (P := fun c => isAsciiLetter (lowerAscii c) = false →
      lowerAscii c = c) (by decide +kernel) hc h
  · exact lowerAscii_of_not_ascii hc

/-- A character is its lower case, or else the upper case of that. -/
theorem eq_lowerAscii_or (c : Char) : c = lowerAscii c ∨ c = upperAscii (lowerAscii c) := by
  by_cases h : c.toNat < 128
  · exact forall_ascii (P := fun c => c = lowerAscii c ∨ c = upperAscii (lowerAscii c))
      (by decide +kernel) h
  · exact .inl (lowerAscii_of_not_ascii h).symm

/-- Characters that differ in case only are the lower or the upper case of one another. -/
theorem lowerAscii_eq_iff {c d : Char} :
    lowerAscii c = lowerAscii d ↔ c = lowerAscii d ∨ c = upperAscii d := by
  obtain ⟨-, hupper, hlower, hself⟩ := case_case d
  constructor
  · intro h
    have hc := eq_lowerAscii_or c
    rwa [h, hupper] at hc
  · rintro (rfl | rfl)
    · exact hself
    · exact hlower

/-- Texts that are equal but for the case of ASCII letters are so character by character. -/
theorem eqIgnoringAsciiCase_iff {s t : List Char} :
    eqIgnoringAsciiCase s t = true ↔
      List.Forall₂ (fun c d => c = lowerAscii d ∨ c = upperAscii d) s t := by
  unfold eqIgnoringAsciiCase
  rw [beq_iff_eq, ← List.forall₂_eq_eq_eq, List.forall₂_map_left_iff, List.forall₂_map_right_iff]
  simp only [lowerAscii_eq_iff]

/-- White space has no case. -/
theorem isBlank_lowerAscii (c : Char) : isBlank (lowerAscii c) = isBlank c := by
  by_cases hc : c.toNat < 128
  · exact forall_ascii (P := fun c => isBlank (lowerAscii c) = isBlank c) (by decide +kernel) hc
  · rw [lowerAscii_of_not_ascii hc]

end CodeTidy.Text
