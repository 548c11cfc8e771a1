import CodeTidy.Text.Blank
import Mathlib.Data.Nat.Notation

/-!
# White space and letters

No white space is a letter, a digit or a sign. The 25 characters of white space are listed here, and
what holds of each character of the list holds of all white space.
-/

namespace CodeTidy.Text

/-- The code points of white space. -/
def blankCodes : List ℕ :=
  [0x20, 0x9, 0xa, 0xb, 0xc, 0xd, 0x85, 0xa0, 0x1680, 0x2000, 0x2001, 0x2002, 0x2003, 0x2004,
    0x2005, 0x2006, 0x2007, 0x2008, 0x2009, 0x200a, 0x2028, 0x2029, 0x202f, 0x205f, 0x3000]

/-- White space is one of the characters listed. -/
theorem mem_blankCodes {c : Char} (h : isBlank c = true) : c.toNat ∈ blankCodes := by
  unfold isBlank at h
  simp only [Bool.or_eq_true, Bool.and_eq_true, beq_iff_eq, decide_eq_true_eq] at h
  simp only [blankCodes, List.mem_cons, List.not_mem_nil, or_false]
  omega

/-- What holds of every character listed holds of all white space. -/
theorem forall_blank {P : Char → Prop} (hP : ∀ n ∈ blankCodes, P (Char.ofNat n)) {c : Char}
    (h : isBlank c = true) : P c := by
  have hc := hP _ (mem_blankCodes h)
  rwa [Char.ofNat_toNat] at hc

/-- White space is no letter and no number of ASCII. -/
theorem isAsciiAlphanumeric_of_blank {c : Char} (h : isBlank c = true) :
    isAsciiAlphanumeric c = false :=
  forall_blank (P := fun c => isAsciiAlphanumeric c = false) (by decide +kernel) h

/-- White space is none of some characters that are not white space. -/
theorem not_mem_of_blank {c : Char} (h : isBlank c = true) {cs : List Char}
    (hcs : cs.all (!isBlank ·) = true) : c ∉ cs := by
  intro hc
  have hnot := List.all_eq_true.mp hcs c hc
  simp [h] at hnot

end CodeTidy.Text
