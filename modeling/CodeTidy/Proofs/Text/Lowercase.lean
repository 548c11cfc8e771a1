import CodeTidy.Proofs.Text.Blank
import CodeTidy.Text.Lowercase
import Mathlib.Data.List.Forall2

/-!
# Lower case is stable

The lower case of a text has no lower case of its own but itself, and it starts and ends in white
space only where the text does. Both follow character by character: the kernel runs through the
runs of the case table once (`caseRuns_low`), and `lowercase_images` says that the text in lower
case is made of the images of its characters, one stretch for each.
-/

namespace CodeTidy.Text

/-- A character that is its own lower case in every context. -/
def IsLow (c : Char) : Prop := lowerChar c = [c] ∧ c ≠ 'Σ'

/-- The test for a low character that is no white space. -/
def isLowMark (d : Char) : Bool := lowerChar d == [d] && d != 'Σ' && !isBlank d

/-- The test says what it should. -/
theorem isLowMark_iff {d : Char} : isLowMark d = true ↔ IsLow d ∧ isBlank d = false := by
  simp [isLowMark, IsLow]

/-- What lower case makes of a run's characters is low and no white space. -/
def CaseRun.low (r : CaseRun) : Bool :=
  0 < r.step && (List.range ((r.last - r.first) / r.step + 1)).all fun k =>
    isLowMark (Char.ofNat (((r.first + k * r.step : ℕ) : ℤ) + r.shift).toNat)

/-- Every run of the case table has low images. -/
theorem caseRuns_low : ∀ r ∈ caseRuns.toList, r.low = true :=
  List.all_eq_true.mp (by decide +kernel)

/-- The small letters of ASCII are low. -/
theorem smallLetters_low : ∀ k < 26, isLowMark (Char.ofNat (0x61 + k)) = true := by
  decide +kernel

/-- The two parts of `İ` in lower case are low, and so are both forms of the small sigma. -/
theorem specials_low : ∀ d ∈ ['i', '\u0307', 'ς', 'σ'], isLowMark d = true :=
  List.all_iff_forall_prop.mp (by decide +kernel)

-- The table is a term as deep as it has runs.
set_option maxRecDepth 4000 in
/-- One halving of the search. -/
theorem findCaseRun_succ (n fuel lo hi : ℕ) : findCaseRun n (fuel + 1) lo hi =
    if lo < hi then
      match caseRuns[(lo + hi) / 2]? with
      | none => none
      | some run =>
        if n < run.first then findCaseRun n fuel lo ((lo + hi) / 2)
        else if run.last < n then findCaseRun n fuel ((lo + hi) / 2 + 1) hi
        else some run
    else none :=
  rfl

/-- A run found for a code point is one of the table, and the code point lies in it. -/
theorem findCaseRun_mem {n : ℕ} {r : CaseRun} : ∀ {fuel lo hi : ℕ},
    findCaseRun n fuel lo hi = some r → r ∈ caseRuns.toList ∧ r.first ≤ n ∧ n ≤ r.last
  | 0, _, _, h => nomatch h
  | fuel + 1, lo, hi, h => by
    rw [findCaseRun_succ] at h
    split_ifs at h with hlt
    generalize hrun : caseRuns[(lo + hi) / 2]? = run at h
    cases run with
    | none => simp at h
    | some run =>
      simp only at h
      split_ifs at h with h1 h2
      · exact findCaseRun_mem h
      · exact findCaseRun_mem h
      · obtain rfl := Option.some.inj h
        obtain ⟨hi', hget⟩ := Array.getElem?_eq_some_iff.mp hrun
        refine ⟨?_, by omega, by omega⟩
        rw [← hget]
        exact Array.mem_toList_iff.mpr (Array.getElem_mem hi')

/-- The image of a code point on the grid of a run is low and no white space. -/
theorem CaseRun.low_image {r : CaseRun} (hr : r ∈ caseRuns.toList) {n : ℕ} (h1 : r.first ≤ n)
    (h2 : n ≤ r.last) (h3 : (n - r.first) % r.step = 0) :
    IsLow (Char.ofNat ((n : ℤ) + r.shift).toNat) ∧
      isBlank (Char.ofNat ((n : ℤ) + r.shift).toNat) = false := by
  have hlow := caseRuns_low r hr
  simp only [CaseRun.low, Bool.and_eq_true, decide_eq_true_eq, List.all_eq_true,
    List.mem_range] at hlow
  obtain ⟨hstep, hall⟩ := hlow
  have hdiv : (n - r.first) / r.step < (r.last - r.first) / r.step + 1 := by
    have := Nat.div_le_div_right (c := r.step) (show n - r.first ≤ r.last - r.first by omega)
    omega
  have hn : r.first + (n - r.first) / r.step * r.step = n := by
    rw [Nat.div_mul_cancel (Nat.dvd_of_mod_eq_zero h3)]
    omega
  have h := hall _ hdiv
  rw [hn] at h
  exact isLowMark_iff.mp h

/-- A letter of ASCII moved into lower case is low and no white space. -/
theorem low_of_upperAscii {c : Char} (h : ('A' ≤ c && c ≤ 'Z') = true) :
    IsLow (Char.ofNat (c.toNat + 32)) ∧ isBlank (Char.ofNat (c.toNat + 32)) = false := by
  simp only [Bool.and_eq_true, decide_eq_true_eq] at h
  obtain ⟨hA, hZ⟩ := h
  have hA' : 0x41 ≤ c.toNat := hA
  have hZ' : c.toNat ≤ 0x5a := hZ
  have hlow := smallLetters_low (c.toNat - 0x41) (by omega)
  rw [show 0x61 + (c.toNat - 0x41) = c.toNat + 32 by omega] at hlow
  exact isLowMark_iff.mp hlow

/-- What one character of a text becomes: something, all of it low, and white space only from
white space. -/
def LowImage (c : Char) (image : List Char) : Prop :=
  image ≠ [] ∧ ∀ d ∈ image, IsLow d ∧ (isBlank d = true → isBlank c = true)

/-- A low character that is no white space is an image of any character. -/
theorem lowImage_singleton (c : Char) {d : Char} (h : IsLow d ∧ isBlank d = false) :
    LowImage c [d] := by
  refine ⟨by simp, ?_⟩
  intro e he
  rw [List.mem_singleton] at he
  rw [he, h.2]
  exact ⟨h.1, by simp⟩

/-- Lower case out of context is an image of the character. -/
theorem lowerChar_image {c : Char} (hc : c ≠ 'Σ') : LowImage c (lowerChar c) := by
  -- Where a character has no other lower case, the image is the character.
  have hself : lowerChar c = [c] → LowImage c (lowerChar c) := by
    intro h
    rw [h]
    refine ⟨by simp, ?_⟩
    intro d hd
    rw [List.mem_singleton] at hd
    subst hd
    exact ⟨⟨h, hc⟩, id⟩
  -- The cases are those of `lowerChar`: ASCII, the dotted capital, and the table.
  by_cases h80 : c.toNat < 0x80
  · by_cases hup : ('A' ≤ c && c ≤ 'Z') = true
    · have himg : lowerChar c = [Char.ofNat (c.toNat + 32)] := by
        unfold lowerChar
        rw [if_pos h80, if_pos hup]
      rw [himg]
      exact lowImage_singleton c (low_of_upperAscii hup)
    · exact hself (by unfold lowerChar; rw [if_pos h80, if_neg hup])
  · by_cases hI : (c == 'İ') = true
    · have himg : lowerChar c = ['i', '\u0307'] := by
        unfold lowerChar
        rw [if_neg h80, if_pos hI]
      rw [himg]
      refine ⟨by simp, ?_⟩
      intro d hd
      have h := isLowMark_iff.mp (specials_low d (by
        simp only [List.mem_cons, List.not_mem_nil, or_false] at hd ⊢
        tauto))
      rw [h.2]
      exact ⟨h.1, by simp⟩
    · generalize hrun : findCaseRun c.toNat (Nat.log2 caseRuns.size + 1) 0 caseRuns.size = run
      cases run with
      | none => exact hself (by unfold lowerChar; rw [if_neg h80, if_neg hI, hrun])
      | some r =>
        obtain ⟨hr, h1, h2⟩ := findCaseRun_mem hrun
        by_cases hstep : ((c.toNat - r.first) % r.step == 0) = true
        · have himg : lowerChar c = [Char.ofNat ((c.toNat : ℤ) + r.shift).toNat] := by
            unfold lowerChar
            rw [if_neg h80, if_neg hI, hrun]
            exact if_pos hstep
          rw [himg]
          exact lowImage_singleton c (CaseRun.low_image hr h1 h2 (by simpa using hstep))
        · refine hself ?_
          unfold lowerChar
          rw [if_neg h80, if_neg hI, hrun]
          exact if_neg hstep

/-- Either form of the small sigma is an image of the capital one. -/
theorem lowImage_sigma (b : Bool) : LowImage 'Σ' [if b then 'ς' else 'σ'] := by
  apply lowImage_singleton
  apply isLowMark_iff.mp
  apply specials_low
  cases b <;> simp

/-- From any point on, the text in lower case is what has been done, followed by one image for
each character. -/
theorem lowercaseFrom_images : ∀ (before done s : List Char),
    ∃ images, lowercaseFrom before done s = done.reverse ++ images.flatten ∧
      List.Forall₂ LowImage s images
  | before, done, [] => ⟨[], by simp [lowercaseFrom], .nil⟩
  | before, done, c :: s => by
    obtain ⟨image, himage, heq⟩ : ∃ image, LowImage c image ∧
        (if c == 'Σ' then [if casedNext before && !casedNext s then 'ς' else 'σ']
          else lowerChar c) = image := by
      refine ⟨_, ?_, rfl⟩
      by_cases hc : c = 'Σ'
      · subst hc
        exact lowImage_sigma _
      · rw [if_neg (by simpa using hc)]
        exact lowerChar_image hc
    obtain ⟨images, hrest, hall⟩ := lowercaseFrom_images (c :: before) (image.reverse ++ done) s
    refine ⟨image :: images, ?_, .cons himage hall⟩
    unfold lowercaseFrom
    simp only [heq]
    rw [hrest]
    simp

/-- The text in lower case is made of one image for each character, in their order. -/
theorem lowercase_images (s : List Char) :
    ∃ images, lowercase s = images.flatten ∧ List.Forall₂ LowImage s images := by
  obtain ⟨images, h, hall⟩ := lowercaseFrom_images [] [] s
  exact ⟨images, by unfold lowercase; rw [h]; rfl, hall⟩

/-- Every character of a text in lower case is low. -/
theorem isLow_of_mem_lowercase {s : List Char} {d : Char} (h : d ∈ lowercase s) : IsLow d := by
  obtain ⟨images, heq, hall⟩ := lowercase_images s
  rw [heq, List.mem_flatten] at h
  obtain ⟨image, hmem, hd⟩ := h
  clear heq
  induction hall with
  | nil => simp at hmem
  | cons himage _ ih =>
    rcases List.mem_cons.mp hmem with rfl | hmem
    · exact (himage.2 d hd).1
    · exact ih hmem

/-- A text of low characters is its own lower case. -/
theorem lowercaseFrom_of_isLow : ∀ (before done s : List Char), (∀ c ∈ s, IsLow c) →
    lowercaseFrom before done s = done.reverse ++ s
  | before, done, [], _ => by simp [lowercaseFrom]
  | before, done, c :: s, h => by
    obtain ⟨hlow, hc⟩ := h c List.mem_cons_self
    unfold lowercaseFrom
    rw [if_neg (by simpa using hc), hlow,
      lowercaseFrom_of_isLow _ _ s fun d hd => h d (List.mem_cons_of_mem c hd)]
    simp

/-- Lower case is stable. -/
theorem lowercase_lowercase (s : List Char) : lowercase (lowercase s) = lowercase s :=
  lowercaseFrom_of_isLow [] [] _ fun _ => isLow_of_mem_lowercase

/-- Images of characters that do not start in white space do not start in it. -/
theorem head_images {s : List Char} {images : List (List Char)} (h : List.Forall₂ LowImage s images)
    (hs : ∀ c, s.head? = some c → isBlank c = false) :
    ∀ d, images.flatten.head? = some d → isBlank d = false := by
  cases h with
  | nil => simp
  | @cons c image s images himage _ =>
    obtain ⟨hne, hd⟩ := himage
    intro d hhead
    rw [List.flatten_cons, List.head?_append_of_ne_nil _ hne] at hhead
    have hcd := (hd d (List.mem_of_mem_head? hhead)).2
    rw [hs c rfl] at hcd
    simpa using hcd

/-- Images of characters that do not end in white space do not end in it. -/
theorem last_images {s : List Char} {images : List (List Char)} (h : List.Forall₂ LowImage s images)
    (hs : ∀ c, s.getLast? = some c → isBlank c = false) :
    ∀ d, images.flatten.getLast? = some d → isBlank d = false := by
  induction h with
  | nil => simp
  | @cons c image s images himage hrest ih =>
    obtain ⟨hne, hd⟩ := himage
    intro d hlast
    rw [List.flatten_cons, List.getLast?_append] at hlast
    cases hrest with
    | nil =>
      have hcd := (hd d (List.mem_of_getLast? (by simpa using hlast))).2
      rw [hs c rfl] at hcd
      simpa using hcd
    | @cons c' image' s' images' himage' _ =>
      refine ih (fun c hc => hs c (by rw [List.getLast?_cons_cons]; exact hc)) d ?_
      rw [List.flatten_cons, List.getLast?_append] at hlast ⊢
      rw [List.getLast?_eq_getLast_of_ne_nil himage'.1] at hlast ⊢
      cases hf : images'.flatten.getLast? <;> simpa [hf] using hlast

/-- The lower case of a trimmed text is trimmed. -/
theorem lowercase_trimmed {s : List Char} (h : Trimmed s) : Trimmed (lowercase s) := by
  obtain ⟨images, heq, hall⟩ := lowercase_images s
  rw [heq]
  exact ⟨head_images hall h.head, last_images hall h.last⟩

end CodeTidy.Text
