import CodeTidy.Proofs.Text.Blank

/-!
# Texts up to white space

A text is stripped of all its white space, or it is seen as solid pieces with white space between
them. The second view says more: a piece stays in one piece, white space inside it included. Neither
trimming nor white space put anywhere between the pieces changes what a text consists of.
-/

namespace CodeTidy.Text

/-- The text without any white space. -/
def strip (s : List Char) : List Char := s.filter (!isBlank ·)

/-- Stripping goes piece by piece. -/
theorem strip_append (s t : List Char) : strip (s ++ t) = strip s ++ strip t := by
  unfold strip
  exact List.filter_append s t

/-- A character is stripped if it is white space. -/
theorem strip_cons (c : Char) (s : List Char) :
    strip (c :: s) = if isBlank c then strip s else c :: strip s := by
  unfold strip
  rw [List.filter_cons]
  cases isBlank c <;> rfl

/-- White space is stripped altogether. -/
theorem strip_of_blank {s : List Char} (h : allBlank s = true) : strip s = [] := by
  unfold strip
  rw [List.filter_eq_nil_iff]
  intro c hc
  simp [allBlank_iff.mp h c hc]

/-- A text is stripped once and for all. -/
theorem strip_strip (s : List Char) : strip (strip s) = strip s := by
  unfold strip
  rw [List.filter_filter]
  simp only [Bool.and_self]

/-- Trimming at the end makes no difference. -/
theorem strip_trimEnd (s : List Char) : strip (trimEnd s) = strip s := by
  obtain ⟨g, hg, hs⟩ := exists_trimEnd s
  have hsplit := congrArg strip hs
  rw [strip_append, strip_of_blank hg, List.append_nil] at hsplit
  exact hsplit.symm

/-- Nor does trimming at both ends. -/
theorem strip_trim (s : List Char) : strip (trim s) = strip s := by
  obtain ⟨g, h, hg, hh, hs⟩ := exists_trim s
  have hsplit := congrArg strip hs
  rw [strip_append, strip_append, strip_of_blank hg, strip_of_blank hh, List.append_nil,
    List.nil_append] at hsplit
  exact hsplit.symm

/-- The parts between cuts at white space have what the text has. -/
theorem strip_splitOn {p : Char → Bool} (hp : ∀ c, p c = true → isBlank c = true)
    (s : List Char) : (splitOn p s).flatMap strip = strip s := by
  induction s with
  | nil => rfl
  | cons c s ih =>
    unfold splitOn at ih ⊢
    rw [List.foldr_cons, strip_cons, ← ih]
    generalize List.foldr _ [[]] s = parts
    split_ifs with hc hblank hblank
    · rfl
    · exact absurd (hp c hc) hblank
    · cases parts with
      | nil => exact (List.flatMap_singleton _ _).trans (by rw [strip_cons, if_pos hblank]; rfl)
      | cons l ls => rw [List.flatMap_cons, List.flatMap_cons, strip_cons, if_pos hblank]
    · cases parts with
      | nil => exact (List.flatMap_singleton _ _).trans (by rw [strip_cons, if_neg hblank]; rfl)
      | cons l ls =>
        rw [List.flatMap_cons, List.flatMap_cons, strip_cons, if_neg hblank]
        rfl

/-! ## Words and lines -/

/-- Stripping a text goes part by part. -/
theorem strip_flatten (parts : List (List Char)) : strip parts.flatten = parts.flatMap strip := by
  induction parts with
  | nil => rfl
  | cons part parts ih => rw [List.flatten_cons, strip_append, ih, List.flatMap_cons]

/-- Parts without any characters hold nothing. -/
theorem flatMap_strip_nonempty (parts : List (List Char)) :
    (parts.filter (!·.isEmpty)).flatMap strip = parts.flatMap strip := by
  induction parts with
  | nil => rfl
  | cons part parts ih =>
    cases part with
    | nil => exact ih
    | cons c part =>
      rw [List.filter_cons_of_pos (by rfl), List.flatMap_cons, List.flatMap_cons, ih]

/-- The words of a text hold what is no white space. -/
theorem flatMap_strip_words (s : List Char) : (words s).flatMap strip = strip s := by
  unfold words
  rw [flatMap_strip_nonempty, strip_splitOn fun _ hc => hc]

/-- Parts are joined with nothing but white space between. -/
theorem strip_joinWith {sep : List Char} (hsep : allBlank sep = true) (parts : List (List Char)) :
    strip (joinWith sep parts) = parts.flatMap strip := by
  have hfold : ∀ (parts : List (List Char)) (first : List Char),
      strip (parts.foldl (fun acc l => acc ++ sep ++ l) first) =
        strip first ++ parts.flatMap strip := by
    intro parts
    induction parts with
    | nil => exact fun first => (List.append_nil _).symm
    | cons part parts ih =>
      intro first
      rw [List.foldl_cons, ih, strip_append, strip_append, strip_of_blank hsep, List.append_nil,
        List.append_assoc, List.flatMap_cons]
  cases parts with
  | nil => rfl
  | cons part parts => exact hfold parts part

/-- The pieces of a text make it up again. -/
theorem flatten_pieces (s : List Char) : (pieces s).flatten = s := by
  induction s with
  | nil => rfl
  | cons c s ih =>
    unfold pieces at ih ⊢
    rw [List.foldr_cons]
    generalize List.foldr _ [] s = parts at ih ⊢
    split_ifs with hc
    · rw [List.flatten_cons, ih, beq_iff_eq.mp hc]
      rfl
    · cases parts with
      | nil =>
        rw [← ih]
        rfl
      | cons part parts =>
        rw [List.flatten_cons] at ih
        rw [List.flatten_cons, List.cons_append, ih]

/-- The terminator of a line is white space. -/
theorem exists_chomp (l : List Char) : ∃ g, allBlank g = true ∧ l = chomp l ++ g := by
  unfold chomp
  split
  · rename_i r hl
    exact ⟨['\r', '\n'], by decide, by simpa using congrArg List.reverse hl⟩
  · rename_i r _ hl
    exact ⟨['\n'], by decide, by simpa using congrArg List.reverse hl⟩
  · exact ⟨[], rfl, (List.append_nil l).symm⟩

/-- So a line without its terminator has what the line has. -/
theorem strip_chomp (l : List Char) : strip (chomp l) = strip l := by
  obtain ⟨g, hg, hl⟩ := exists_chomp l
  have hsplit := congrArg strip hl
  rw [strip_append, strip_of_blank hg, List.append_nil] at hsplit
  exact hsplit.symm

/-- The lines of a text hold what is no white space. -/
theorem flatMap_strip_lines (s : List Char) : (lines s).flatMap strip = strip s := by
  unfold lines
  have hmap : ∀ parts : List (List Char), (parts.map chomp).flatMap strip = parts.flatMap strip := by
    intro parts
    rw [List.flatMap_map]
    exact List.flatMap_congr fun part _ => strip_chomp part
  rw [hmap, ← strip_flatten, flatten_pieces]

/-! ## Pieces -/

/-- A piece that is not empty and whose ends are not white space. -/
structure Solid (z : List Char) : Prop where
  nonempty : z ≠ []
  trimmed : Trimmed z

/-- A text consists of pieces, in this order, with white space around them. -/
inductive Spaced : List (List Char) → List Char → Prop
  | nil {s : List Char} (h : allBlank s = true) : Spaced [] s
  | cons {gap z s : List Char} {zs : List (List Char)} (hgap : allBlank gap = true)
    (h : Spaced zs s) : Spaced (z :: zs) (gap ++ (z ++ s))

/-- White space in front of a text does not change what it consists of. -/
theorem Spaced.blank_append {zs : List (List Char)} {g s : List Char} (hg : allBlank g = true)
    (h : Spaced zs s) : Spaced zs (g ++ s) := by
  cases h with
  | nil h => exact .nil (allBlank_append hg h)
  | cons hgap h =>
    rw [← List.append_assoc]
    exact .cons (allBlank_append hg hgap) h

/-- Texts that follow each other consist of the pieces of both. -/
theorem Spaced.append {zs ws : List (List Char)} {s t : List Char} (hs : Spaced zs s)
    (ht : Spaced ws t) : Spaced (zs ++ ws) (s ++ t) := by
  induction hs with
  | nil h => exact ht.blank_append h
  | cons hgap _ ih =>
    rw [List.cons_append, List.append_assoc, List.append_assoc]
    exact .cons hgap ih

/-- White space behind a text does not change what it consists of either. -/
theorem Spaced.append_blank {zs : List (List Char)} {g s : List Char} (h : Spaced zs s)
    (hg : allBlank g = true) : Spaced zs (s ++ g) := by
  have happend := h.append (.nil hg)
  rwa [List.append_nil] at happend

/-- A text is one piece. -/
theorem spaced_self (z : List Char) : Spaced [z] z := by
  have h : Spaced [z] ([] ++ (z ++ [])) := .cons rfl (.nil rfl)
  rwa [List.nil_append, List.append_nil] at h

/-- A text consists of its characters that are not white space. -/
theorem spaced_chars (s : List Char) : Spaced ((strip s).map fun c => [c]) s := by
  induction s with
  | nil => exact .nil rfl
  | cons c s ih =>
    rw [strip_cons]
    split_ifs with hc
    · exact ih.blank_append (g := [c]) (by simp [allBlank, hc])
    · exact (spaced_self [c]).append ih

/-- A piece stands in the text. -/
theorem Spaced.infix {zs : List (List Char)} {s : List Char} (h : Spaced zs s) :
    ∀ z ∈ zs, z <:+: s := by
  induction h with
  | nil => simp
  | @cons gap z s zs hgap _ ih =>
    intro w hw
    rcases List.mem_cons.mp hw with rfl | hw
    · exact ⟨gap, s, by rw [List.append_assoc]⟩
    · obtain ⟨before, after, heq⟩ := ih w hw
      exact ⟨gap ++ (z ++ before), after, by simp [← heq]⟩

/-- What is left of a text without white space is what is left of its pieces. -/
theorem Spaced.strip_eq {zs : List (List Char)} {s : List Char} (h : Spaced zs s) :
    strip s = zs.flatMap strip := by
  induction h with
  | nil h => exact strip_of_blank h
  | cons hgap _ ih =>
    rw [strip_append, strip_append, strip_of_blank hgap, List.nil_append, ih, List.flatMap_cons]

/-- What does not end in white space is not cut where something follows it. -/
theorem trimEnd_append {s t : List Char} (hs : ∀ c, s.getLast? = some c → isBlank c = false) :
    trimEnd (s ++ t) = s ++ trimEnd t := by
  unfold trimEnd
  rw [List.reverse_append, List.dropWhile_append]
  split_ifs with hblank
  · have hlast := trimEnd_eq_self hs
    unfold trimEnd at hlast
    rw [hlast, List.isEmpty_iff.mp hblank]
    simp
  · simp

/-- Cutting the end of a text leaves its solid pieces alone. -/
theorem Spaced.trimEnd {zs : List (List Char)} {s : List Char} (h : Spaced zs s)
    (hzs : ∀ z ∈ zs, Solid z) : Spaced zs (trimEnd s) := by
  induction h with
  | @nil s h =>
    obtain ⟨g, -, hs⟩ := exists_trimEnd s
    refine .nil (allBlank_iff.mpr fun c hc => allBlank_iff.mp h c ?_)
    rw [hs]
    exact List.mem_append_left _ hc
  | @cons gap z s zs hgap _ ih =>
    have hz := hzs z List.mem_cons_self
    have hrest := ih fun w hw => hzs w (List.mem_cons_of_mem _ hw)
    -- The cut stops at a piece, whose last character is no white space.
    have hlast : ∀ c, (gap ++ z).getLast? = some c → isBlank c = false := by
      intro c hc
      rw [List.getLast?_append_of_ne_nil _ hz.nonempty] at hc
      exact hz.trimmed.last c hc
    rw [← List.append_assoc, trimEnd_append hlast, List.append_assoc]
    exact .cons hgap hrest

/-- So does cutting the start. -/
theorem Spaced.trimStart {zs : List (List Char)} {s : List Char} (h : Spaced zs s)
    (hzs : ∀ z ∈ zs, Solid z) : Spaced zs (trimStart s) := by
  cases h with
  | nil h =>
    obtain ⟨g, -, hs⟩ := exists_trimStart s
    refine .nil (allBlank_iff.mpr fun c hc => allBlank_iff.mp h c ?_)
    rw [hs]
    exact List.mem_append_right _ hc
  | @cons gap z s zs hgap h =>
    have hz := hzs z List.mem_cons_self
    have hcut : Text.trimStart (gap ++ (z ++ s)) = Text.trimStart (z ++ s) := by
      unfold Text.trimStart
      rw [List.dropWhile_append_of_pos (allBlank_iff.mp hgap)]
    have hhead : ∀ c, (z ++ s).head? = some c → isBlank c = false := by
      intro c hc
      rw [List.head?_append_of_ne_nil _ hz.nonempty] at hc
      exact hz.trimmed.head c hc
    rw [hcut, trimStart_eq_self hhead]
    exact (spaced_self z).append h

/-- And so does trimming. -/
theorem Spaced.trim {zs : List (List Char)} {s : List Char} (h : Spaced zs s)
    (hzs : ∀ z ∈ zs, Solid z) : Spaced zs (trim s) := (h.trimStart hzs).trimEnd hzs

/-! ## Lines -/

/-- The text of finished lines, the last of which comes first. -/
def lined (done : List (List Char)) : List Char := (done.reverse.map (· ++ ['\n'])).flatten

/-- A line goes behind the others with its line break. -/
theorem lined_cons (line : List Char) (done : List (List Char)) :
    lined (line :: done) = lined done ++ (line ++ ['\n']) := by
  unfold lined
  rw [List.reverse_cons, List.map_append, List.flatten_append, List.map_singleton,
    List.flatten_singleton]

/-- A line of pieces behind finished lines, whether or not a blank line is put between. -/
theorem Spaced.lined {above below : List (List Char)} {line : List Char} {done : List (List Char)}
    (habove : Spaced above (Text.lined done)) (hbelow : Spaced below line) (blank : Bool) :
    Spaced (above ++ below) (Text.lined (line :: if blank then [] :: done else done)) := by
  have hbreak : allBlank ['\n'] = true := by decide
  have hdone : Spaced above (Text.lined (if blank then [] :: done else done)) := by
    cases blank with
    | false => exact habove
    | true =>
      rw [if_pos rfl, lined_cons]
      exact habove.append_blank hbreak
  rw [lined_cons]
  exact hdone.append (hbelow.append_blank hbreak)

end CodeTidy.Text
