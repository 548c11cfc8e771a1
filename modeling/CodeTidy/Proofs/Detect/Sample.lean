import CodeTidy.Detect.Basic
import Mathlib.Data.List.Infix
import Mathlib.Tactic.SplitIfs

/-!
# The part of a text that is looked at

Only the start of a text is looked at: the longest prefix of whole characters that takes no more
bytes than are allowed. What stands behind it makes no difference.
-/

namespace CodeTidy.Detect

open Text

/-- The bytes of a text are those of its characters. -/
theorem byteLength_cons (c : Char) (s : List Char) :
    byteLength (c :: s) = c.utf8Size + byteLength s := by
  have hfold : ∀ (s : List Char) (n : ℕ),
      s.foldl (fun n c => n + c.utf8Size) n = n + byteLength s := by
    intro s
    induction s with
    | nil => exact fun n => rfl
    | cons d s ih =>
      intro n
      unfold byteLength
      rw [List.foldl_cons, List.foldl_cons, ih, ih, Nat.zero_add, Nat.add_assoc]
  unfold byteLength
  rw [List.foldl_cons, hfold, Nat.zero_add]
  rfl

/-- So it is with the bytes of two texts. -/
theorem byteLength_append (s t : List Char) :
    byteLength (s ++ t) = byteLength s + byteLength t := by
  induction s with
  | nil => exact (Nat.zero_add _).symm
  | cons c s ih => rw [List.cons_append, byteLength_cons, byteLength_cons, ih, Nat.add_assoc]

/-- A text has no fewer bytes than characters. -/
theorem length_le_byteLength (s : List Char) : s.length ≤ byteLength s := by
  induction s with
  | nil => exact Nat.le_refl 0
  | cons c s ih =>
    have hc := c.utf8Size_pos
    rw [List.length_cons, byteLength_cons]
    omega

/-- A character is taken if it fits, and what fits into the rest of the budget is taken behind it. -/
theorem takeBytes_cons (budget : ℕ) (c : Char) (s : List Char) :
    takeBytes budget (c :: s) =
      if c.utf8Size ≤ budget then c :: takeBytes (budget - c.utf8Size) s else [] := by
  have hdone : ∀ (s done : List Char) (budget : ℕ),
      takeBytes.go budget done s = done.reverse ++ takeBytes budget s := by
    intro s
    induction s with
    | nil => exact fun done budget => (List.append_nil _).symm
    | cons d s ih =>
      intro done budget
      unfold takeBytes
      rw [takeBytes.go, takeBytes.go]
      split_ifs
      · rw [ih, ih [d]]
        simp
      · simp
  unfold takeBytes
  rw [takeBytes.go]
  split_ifs
  · rw [hdone, List.reverse_singleton, List.singleton_append]
    rfl
  · rfl

/-- A part of a text is the longest prefix that takes at most `budget` bytes. -/
structure LongestWithin (budget : ℕ) (text part : List Char) : Prop where
  isPrefix : part <+: text
  fits : byteLength part ≤ budget
  longest : ∀ p, p <+: text → byteLength p ≤ budget → p <+: part

/-- What is taken is the longest prefix within the budget. -/
theorem takeBytes_longest (budget : ℕ) (text : List Char) :
    LongestWithin budget text (takeBytes budget text) := by
  induction text generalizing budget with
  | nil => exact ⟨List.prefix_rfl, Nat.zero_le _, fun p hp _ => hp⟩
  | cons c s ih =>
    rw [takeBytes_cons]
    split_ifs with hc
    · obtain ⟨hpre, hfits, hlongest⟩ := ih (budget - c.utf8Size)
      refine ⟨List.cons_prefix_cons.mpr ⟨rfl, hpre⟩, ?_, ?_⟩
      · rw [byteLength_cons]
        omega
      · intro p hp hle
        cases p with
        | nil => exact List.nil_prefix
        | cons d p =>
          obtain ⟨rfl, hrest⟩ := List.cons_prefix_cons.mp hp
          rw [byteLength_cons] at hle
          exact List.cons_prefix_cons.mpr ⟨rfl, hlongest p hrest (by omega)⟩
    · refine ⟨List.nil_prefix, Nat.zero_le _, ?_⟩
      intro p hp hle
      cases p with
      | nil => exact List.prefix_rfl
      | cons d p =>
        obtain ⟨rfl, -⟩ := List.cons_prefix_cons.mp hp
        rw [byteLength_cons] at hle
        omega

/-- There is only one longest prefix. -/
theorem LongestWithin.unique {budget : ℕ} {text part part' : List Char}
    (h : LongestWithin budget text part) (h' : LongestWithin budget text part') :
    part = part' :=
  (h'.longest part h.isPrefix h.fits).eq_of_length_le
    (h.longest part' h'.isPrefix h'.fits).length_le

/-- Taking what was taken takes all of it. -/
theorem sample_sample (text : List Char) : sample (sample text) = sample text := by
  have hfits := (takeBytes_longest sampleBytes text).fits
  have hall : LongestWithin sampleBytes (sample text) (sample text) :=
    ⟨List.prefix_rfl, hfits, fun p hp _ => hp⟩
  exact (takeBytes_longest sampleBytes (sample text)).unique hall

/-- A text with more characters than bytes are allowed is not looked at to its end. -/
theorem sample_ne_of_length {text : List Char} (h : sampleBytes < text.length) :
    sample text ≠ text := by
  intro heq
  have hfits := (takeBytes_longest sampleBytes text).fits
  have hbytes := length_le_byteLength text
  rw [show takeBytes sampleBytes text = text from heq] at hfits
  omega

/-- If something is left of a text, more of the text is left as well. -/
theorem sample_append {text : List Char} (h : sample text ≠ text) (more : List Char) :
    sample (text ++ more) = sample text := by
  obtain ⟨hpre, hfits, hlongest⟩ := takeBytes_longest sampleBytes text
  have hall : LongestWithin sampleBytes (text ++ more) (sample text) := by
    refine ⟨hpre.trans (List.prefix_append text more), hfits, ?_⟩
    intro p hp hle
    -- A prefix that goes beyond the text would make all of the text fit.
    rcases List.prefix_or_prefix_of_prefix hp (List.prefix_append text more) with hin | hover
    · exact hlongest p hin hle
    · obtain ⟨tail, rfl⟩ := hover
      rw [byteLength_append] at hle
      have htext : byteLength text ≤ sampleBytes := le_trans (Nat.le_add_right _ _) hle
      exact absurd (hpre.eq_of_length_le (hlongest text List.prefix_rfl htext).length_le) h
  exact (takeBytes_longest sampleBytes (text ++ more)).unique hall

end CodeTidy.Detect
