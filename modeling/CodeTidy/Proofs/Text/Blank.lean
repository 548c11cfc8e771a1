import CodeTidy.Text.Blank
import Mathlib.Data.Bool.AllAny
import Mathlib.Data.List.DropRight
import Mathlib.Data.List.TakeWhile
import Mathlib.Tactic.SplitIfs

/-!
# White space at the ends of a text

Trimming cuts a text into white space, a middle that is trimmed, and white space. `Trimmed` says of
a text that there is nothing to cut, which its two ends decide.
-/

namespace CodeTidy.Text

/-- Neither end of the text is white space. -/
structure Trimmed (s : List Char) : Prop where
  /-- The first character, if there is one, is not white space. -/
  head : ∀ c, s.head? = some c → isBlank c = false
  /-- Nor is the last. -/
  last : ∀ c, s.getLast? = some c → isBlank c = false

/-- A text that does not start with white space is trimmed with another character behind it. -/
theorem trimmed_concat {s : List Char} {c : Char} (hs : ∀ d, s.head? = some d → isBlank d = false)
    (hc : isBlank c = false) : Trimmed (s ++ [c]) := by
  refine ⟨?_, ?_⟩
  · intro d hd
    cases s with
    | nil =>
      obtain rfl := Option.some.inj hd
      exact hc
    | cons e s => exact hs d hd
  · intro d hd
    rw [List.getLast?_concat] at hd
    obtain rfl := Option.some.inj hd
    exact hc

/-- A text without white space is trimmed. -/
theorem trimmed_of_forall {s : List Char} (h : ∀ c ∈ s, isBlank c = false) : Trimmed s :=
  ⟨fun c hc => h c (List.mem_of_mem_head? hc), fun c hc => h c (List.mem_of_mem_getLast? hc)⟩

/-- White space is what `allBlank` tests, character by character. -/
theorem allBlank_iff {s : List Char} : allBlank s = true ↔ ∀ c ∈ s, isBlank c = true := by
  unfold allBlank
  exact List.all_eq_true

/-- White space behind white space is white space. -/
theorem allBlank_append {s t : List Char} (hs : allBlank s = true) (ht : allBlank t = true) :
    allBlank (s ++ t) = true := by
  unfold allBlank at *
  rw [List.all_append, hs, ht]
  rfl

/-- White space without its first character is white space. -/
theorem allBlank_of_cons {c : Char} {s : List Char} (h : allBlank (c :: s) = true) :
    allBlank s = true := by
  rw [allBlank_iff] at h ⊢
  exact fun d hd => h d (List.mem_cons_of_mem _ hd)

/-- White space many times over is white space. -/
theorem allBlank_replicate {s : List Char} (h : allBlank s = true) (n : ℕ) :
    allBlank (List.replicate n s).flatten = true := by
  rw [allBlank_iff]
  intro c hc
  obtain ⟨t, ht, hct⟩ := List.mem_flatten.mp hc
  rw [List.eq_of_mem_replicate ht] at hct
  exact allBlank_iff.mp h c hct

/-- The end of a text is cut off as white space. -/
theorem exists_trimEnd (s : List Char) : ∃ g, allBlank g = true ∧ s = trimEnd s ++ g := by
  refine ⟨(s.reverse.takeWhile isBlank).reverse, ?_, ?_⟩
  · rw [allBlank_iff]
    intro c hc
    rw [List.mem_reverse] at hc
    exact List.mem_takeWhile_imp hc
  · unfold trimEnd
    rw [← List.reverse_append, List.takeWhile_append_dropWhile, List.reverse_reverse]

/-- The start of a text is cut off as white space. -/
theorem exists_trimStart (s : List Char) : ∃ g, allBlank g = true ∧ s = g ++ trimStart s := by
  refine ⟨s.takeWhile isBlank, ?_, List.takeWhile_append_dropWhile.symm⟩
  rw [allBlank_iff]
  intro c hc
  exact List.mem_takeWhile_imp hc

/-- A text is its trimmed middle between two stretches of white space. -/
theorem exists_trim (s : List Char) :
    ∃ g h, allBlank g = true ∧ allBlank h = true ∧ s = g ++ trim s ++ h := by
  obtain ⟨g, hg, hs⟩ := exists_trimStart s
  obtain ⟨h, hh, ht⟩ := exists_trimEnd (trimStart s)
  refine ⟨g, h, hg, hh, ?_⟩
  unfold trim
  rw [List.append_assoc, ← ht, ← hs]

/-- The last character of a text cut at its end is not white space. -/
theorem trimEnd_last {s : List Char} {c : Char} (h : (trimEnd s).getLast? = some c) :
    isBlank c = false := by
  unfold trimEnd at h
  rw [List.getLast?_reverse] at h
  have hd := List.head?_dropWhile_not isBlank s.reverse
  rw [h] at hd
  exact hd

/-- The first character of a text cut at its start is not white space. -/
theorem trimStart_head {s : List Char} {c : Char} (h : (trimStart s).head? = some c) :
    isBlank c = false := by
  unfold trimStart at h
  have hd := List.head?_dropWhile_not isBlank s
  rw [h] at hd
  exact hd

/-- The middle that trimming leaves is trimmed. -/
theorem trim_trimmed (s : List Char) : Trimmed (trim s) := by
  refine ⟨?_, fun c hc => trimEnd_last hc⟩
  intro c hc
  -- The first character of the middle is the one at which the leading white space ended.
  obtain ⟨g, -, hg⟩ := exists_trimEnd (trimStart s)
  have hhead : (trimStart s).head? = some c := by
    rw [hg, List.head?_append]
    unfold trim at hc
    rw [hc]
    rfl
  exact trimStart_head hhead

/-- A text that does not end in white space is not cut at its end. -/
theorem trimEnd_eq_self {s : List Char} (h : ∀ c, s.getLast? = some c → isBlank c = false) :
    trimEnd s = s := by
  unfold trimEnd
  cases hr : s.reverse with
  | nil => rw [List.reverse_eq_nil_iff.mp hr]; rfl
  | cons c r =>
    have hc : isBlank c = false := h c (by rw [List.getLast?_eq_head?_reverse, hr]; rfl)
    rw [List.dropWhile_cons_of_neg (by simp [hc]), ← hr, List.reverse_reverse]

/-- A first character that is not white space stays the first. -/
theorem trimEnd_cons {c : Char} (h : isBlank c = false) (s : List Char) :
    trimEnd (c :: s) = c :: trimEnd s := by
  unfold trimEnd
  rw [List.reverse_cons, List.dropWhile_append]
  split_ifs with hs
  · rw [List.isEmpty_iff.mp hs]
    simp [h]
  · simp

/-- White space at the end of a text makes no difference to what is left of it. -/
theorem trimEnd_append_blank {s g : List Char} (h : allBlank g = true) :
    trimEnd (s ++ g) = trimEnd s := by
  unfold trimEnd
  rw [List.reverse_append, List.dropWhile_append_of_pos]
  intro c hc
  exact allBlank_iff.mp h c (List.mem_reverse.mp hc)

/-- A text that does not start with white space is not cut at its start. -/
theorem trimStart_eq_self {s : List Char} (h : ∀ c, s.head? = some c → isBlank c = false) :
    trimStart s = s := by
  unfold trimStart
  cases s with
  | nil => rfl
  | cons c r => rw [List.dropWhile_cons_of_neg (by simp [h c rfl])]

/-- Trimming leaves a trimmed text alone. -/
theorem trim_eq_self {s : List Char} (h : Trimmed s) : trim s = s := by
  unfold trim
  rw [trimStart_eq_self h.head, trimEnd_eq_self h.last]

/-- White space in front of a text makes no difference to what is left of it. -/
theorem trimStart_blank_append {g : List Char} (h : allBlank g = true) (s : List Char) :
    trimStart (g ++ s) = trimStart s := by
  unfold trimStart
  rw [List.dropWhile_append_of_pos]
  exact allBlank_iff.mp h

/-- A text is cut at its start once and for all. -/
theorem trimStart_trimStart (s : List Char) : trimStart (trimStart s) = trimStart s :=
  trimStart_eq_self fun _ hc => trimStart_head hc

/-- Trimming cuts the start. -/
theorem trim_trimStart (s : List Char) : trim (trimStart s) = trim s := by
  unfold trim
  rw [trimStart_trimStart]

/-- A trimmed text starts where it did. -/
theorem trimStart_trim (s : List Char) : trimStart (trim s) = trim s :=
  trimStart_eq_self (trim_trimmed s).head

/-- White space in front of a text is trimmed. -/
theorem trim_blank_append {g : List Char} (h : allBlank g = true) (s : List Char) :
    trim (g ++ s) = trim s := by
  unfold trim
  rw [trimStart_blank_append h]

/-- A text is cut down to nothing if it is white space, and only then. -/
theorem trimStart_eq_nil_iff {s : List Char} : trimStart s = [] ↔ allBlank s = true := by
  unfold trimStart
  rw [List.dropWhile_eq_nil_iff, allBlank_iff]

/-- White space behind a text is trimmed. -/
theorem trim_append_blank {s g : List Char} (h : allBlank g = true) : trim (s ++ g) = trim s := by
  unfold trim trimStart
  rw [List.dropWhile_append]
  split_ifs with hs
  · rw [List.isEmpty_iff] at hs
    rw [hs, List.dropWhile_eq_nil_iff.mpr (allBlank_iff.mp h)]
  · exact trimEnd_append_blank h

/-- Trimming cuts the end. -/
theorem trim_trimEnd (s : List Char) : trim (trimEnd s) = trim s := by
  obtain ⟨g, hg, hs⟩ := exists_trimEnd s
  have htrim := trim_append_blank (s := trimEnd s) hg
  rw [← hs] at htrim
  exact htrim.symm

/-- Nothing is left of a text that is white space, and only of such a text. -/
theorem trim_eq_nil_iff {s : List Char} : trim s = [] ↔ allBlank s = true := by
  refine ⟨?_, ?_⟩
  · intro h
    obtain ⟨g, k, hg, hk, hs⟩ := exists_trim s
    rw [hs, h, List.append_nil]
    exact allBlank_append hg hk
  · intro h
    unfold trim
    rw [trimStart_eq_nil_iff.mpr h]
    rfl

/-- A text stands between two stretches of white space, which may be empty. -/
def Padded (t s : List Char) : Prop :=
  ∃ g h, allBlank g = true ∧ allBlank h = true ∧ s = g ++ t ++ h

/-- Trimming leaves the trimmed text that stands between white space. -/
theorem trim_eq_iff {s t : List Char} (ht : Trimmed t) : trim s = t ↔ Padded t s := by
  constructor
  · rintro rfl
    exact exists_trim s
  · rintro ⟨g, h, hg, hh, rfl⟩
    rw [trim_append_blank hh, trim_blank_append hg, trim_eq_self ht]

/-- One trimmed text at most stands between the white space of a text. -/
theorem Padded.unique {s t u : List Char} (hs : Padded t s) (hs' : Padded u s) (ht : Trimmed t)
    (hu : Trimmed u) : t = u := by
  rw [← (trim_eq_iff ht).mpr hs, (trim_eq_iff hu).mpr hs']

/-- Trimming cuts the start only, unless the text ends in white space. -/
theorem trim_eq_trimStart_iff {s : List Char} (h : allBlank s = false) :
    trim s = trimStart s ↔ ∀ c, s.getLast? = some c → isBlank c = false := by
  -- The last character of the text is the last behind the white space at its start.
  have hne : trimStart s ≠ [] := by
    intro hnil
    rw [trimStart_eq_nil_iff.mp hnil] at h
    exact Bool.noConfusion h
  have hlast : (trimStart s).getLast? = s.getLast? := by
    obtain ⟨g, -, hs⟩ := exists_trimStart s
    rw [hs, List.getLast?_append_of_ne_nil _ hne, ← hs]
  rw [← hlast]
  refine ⟨?_, ?_⟩
  · intro heq c hc
    unfold trim at heq
    rw [← heq] at hc
    exact trimEnd_last hc
  · exact fun hend => trimEnd_eq_self hend

end CodeTidy.Text
