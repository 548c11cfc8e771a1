import CodeTidy.Proofs.Text.Ascii
import CodeTidy.Proofs.Text.Strip
import Mathlib.Data.List.Infix

/-!
# The parts of a text with other white space between them

White space divides a text into parts, its words or its lines without the white space around them.
Joined again, with any white space between them, the parts make up a text that differs from the
first only in the gaps between its parts. `Respaced` relates two such texts. Whatever has no white
space in it stands in both or in neither.
-/

namespace CodeTidy.Text

/-- There is no white space in a text. -/
def Unbroken (s : List Char) : Prop := ∀ c ∈ s, isBlank c = false

/-- The test for it. -/
theorem unbroken_iff {s : List Char} : Unbroken s ↔ s.any isBlank = false := by
  unfold Unbroken
  rw [List.any_eq_false]
  simp only [Bool.not_eq_true]

/-- White space has no case. -/
theorem allBlank_map_lowerAscii {g : List Char} (h : allBlank g = true) :
    allBlank (g.map lowerAscii) = true := by
  rw [allBlank_iff, List.forall_mem_map]
  intro c hc
  rw [isBlank_lowerAscii]
  exact allBlank_iff.mp h c hc

/-- Two texts differ only in the white space of some gaps, which are gaps in both. -/
inductive Respaced : List Char → List Char → Prop
  | nil : Respaced [] []
  | cons (c : Char) {s t : List Char} (h : Respaced s t) : Respaced (c :: s) (c :: t)
  | gap {g g' s t : List Char} (hg : allBlank g = true) (hne : g ≠ []) (hg' : allBlank g' = true)
    (hne' : g' ≠ []) (h : Respaced s t) : Respaced (g ++ s) (g' ++ t)

namespace Respaced

variable {s t : List Char}

/-- A text differs from itself in nothing. -/
theorem refl (s : List Char) : Respaced s s := by
  induction s with
  | nil => exact .nil
  | cons c s ih => exact .cons c ih

/-- The two texts may change places. -/
theorem symm (h : Respaced s t) : Respaced t s := by
  induction h with
  | nil => exact .nil
  | cons c _ ih => exact .cons c ih
  | gap hg hne hg' hne' _ ih => exact .gap hg' hne' hg hne ih

/-- Texts that follow each other differ in the gaps of both. -/
theorem append {s' t' : List Char} (h : Respaced s t) (h' : Respaced s' t') :
    Respaced (s ++ s') (t ++ t') := by
  induction h with
  | nil => exact h'
  | cons c _ ih => exact .cons c ih
  | gap hg hne hg' hne' _ ih =>
    rw [List.append_assoc, List.append_assoc]
    exact .gap hg hne hg' hne' ih

/-- No text but the empty one differs from it in gaps. -/
theorem eq_nil (h : Respaced [] t) : t = [] := by
  generalize hs : ([] : List Char) = s at h
  cases h with
  | nil => rfl
  | cons => exact absurd hs nofun
  | gap _ hne => exact absurd (List.append_eq_nil_iff.mp hs.symm).1 hne

/-- What has no white space in it is at the start of both texts. -/
theorem isPrefix (h : Respaced s t) {n : List Char} (hn : Unbroken n) (hs : n <+: s) : n <+: t := by
  induction h generalizing n with
  | nil => exact hs
  | cons c _ ih =>
    cases n with
    | nil => exact List.nil_prefix
    | cons d n =>
      obtain ⟨rfl, hrest⟩ := List.cons_prefix_cons.mp hs
      exact List.cons_prefix_cons.mpr ⟨rfl, ih (fun e he => hn e (List.mem_cons_of_mem _ he)) hrest⟩
  | @gap g g' s t hg hne =>
    cases n with
    | nil => exact List.nil_prefix
    | cons d n =>
      obtain ⟨c, g, rfl⟩ := List.exists_cons_of_ne_nil hne
      obtain ⟨rfl, -⟩ := List.cons_prefix_cons.mp hs
      have hblank := allBlank_iff.mp hg d List.mem_cons_self
      rw [hn d List.mem_cons_self] at hblank
      exact Bool.noConfusion hblank

/-- The first character is the same, if it is no white space. -/
theorem of_cons {c : Char} (hc : isBlank c = false) (h : Respaced (c :: s) t) :
    ∃ t', t = c :: t' ∧ Respaced s t' := by
  generalize hs : c :: s = s' at h
  cases h with
  | nil => exact absurd hs (List.cons_ne_nil _ _)
  | cons d h =>
    obtain ⟨rfl, rfl⟩ := List.cons.inj hs
    exact ⟨_, rfl, h⟩
  | gap hg hne =>
    obtain ⟨d, g, rfl⟩ := List.exists_cons_of_ne_nil hne
    obtain rfl := (List.cons.inj hs).1
    have hblank := allBlank_iff.mp hg c List.mem_cons_self
    rw [hc] at hblank
    exact Bool.noConfusion hblank

/-- The last character is the same, if it is no white space. -/
theorem concat {c : Char} (hc : isBlank c = false) (h : Respaced (s ++ [c]) t) :
    ∃ t', t = t' ++ [c] ∧ Respaced s t' := by
  generalize hs : s ++ [c] = s' at h
  induction h generalizing s with
  | nil => exact absurd hs (by simp)
  | @cons d s' t h ih =>
    cases s with
    | nil =>
      obtain ⟨rfl, rfl⟩ := List.cons.inj hs
      rw [h.eq_nil]
      exact ⟨[], rfl, .nil⟩
    | cons e s =>
      obtain ⟨rfl, hrest⟩ := List.cons.inj hs
      obtain ⟨t', rfl, h'⟩ := ih hrest
      exact ⟨e :: t', rfl, .cons e h'⟩
  | @gap g g' s' t hg hne hg' hne' _ ih =>
    -- The character is behind the gap.
    rcases List.append_eq_append_iff.mp hs with ⟨more, rfl, hmore⟩ | ⟨more, rfl, hmore⟩
    · cases more with
      | nil =>
        obtain ⟨t', rfl, h'⟩ := ih (s := []) hmore
        obtain rfl := h'.eq_nil
        refine ⟨g', rfl, ?_⟩
        simpa using Respaced.gap hg hne hg' hne' .nil
      | cons d more =>
        obtain ⟨rfl, -⟩ := List.cons.inj hmore
        have hblank := allBlank_iff.mp hg c (List.mem_append_right _ List.mem_cons_self)
        rw [hc] at hblank
        exact Bool.noConfusion hblank
    · obtain ⟨t', rfl, h'⟩ := ih hmore.symm
      refine ⟨g' ++ t', (List.append_assoc _ _ _).symm, .gap hg hne hg' hne' h'⟩

/-- The case of letters does not matter. -/
theorem map_lowerAscii (h : Respaced s t) :
    Respaced (s.map lowerAscii) (t.map lowerAscii) := by
  induction h with
  | nil => exact .nil
  | cons c _ ih => exact .cons (lowerAscii c) ih
  | gap hg hne hg' hne' _ ih =>
    rw [List.map_append, List.map_append]
    exact .gap (allBlank_map_lowerAscii hg) (by simpa using hne) (allBlank_map_lowerAscii hg')
      (by simpa using hne') ih

end Respaced

/-! ## Parts without white space -/

/-- What stands in front of a character that it does not have ends there. -/
theorem isPrefix_of_append_cons {n s t : List Char} {c : Char} (hc : c ∉ n)
    (h : n <+: s ++ c :: t) : n <+: s := by
  induction s generalizing n with
  | nil =>
    cases n with
    | nil => exact List.nil_prefix
    | cons d n =>
      obtain ⟨rfl, -⟩ := List.cons_prefix_cons.mp h
      exact absurd List.mem_cons_self hc
  | cons e s ih =>
    cases n with
    | nil => exact List.nil_prefix
    | cons d n =>
      obtain ⟨rfl, hrest⟩ := List.cons_prefix_cons.mp h
      refine List.cons_prefix_cons.mpr ⟨rfl, ih (fun hmem => hc ?_) hrest⟩
      exact List.mem_cons_of_mem _ hmem

/-- And in front of white space, if it has none. -/
theorem isPrefix_of_append_blank {n s g : List Char} (hn : Unbroken n) (hg : allBlank g = true)
    (h : n <+: s ++ g) : n <+: s := by
  cases g with
  | nil => rwa [List.append_nil] at h
  | cons c g =>
    refine isPrefix_of_append_cons (fun hmem => ?_) h
    have hblank := allBlank_iff.mp hg c List.mem_cons_self
    rw [hn c hmem] at hblank
    exact Bool.noConfusion hblank

/-- What stands in a text stands on one side of a character that it does not have. -/
theorem isInfix_append_cons_iff {n s t : List Char} {c : Char} (hc : c ∉ n) :
    n <:+: s ++ c :: t ↔ n <:+: s ∨ n <:+: t := by
  constructor
  · intro h
    induction s with
    | nil =>
      rcases List.infix_cons_iff.mp h with h | h
      · exact .inl (isPrefix_of_append_cons (s := []) hc h).isInfix
      · exact .inr h
    | cons d s ih =>
      rcases List.infix_cons_iff.mp h with h | h
      · exact .inl (isPrefix_of_append_cons hc h).isInfix
      · exact (ih h).imp_left fun h => List.infix_cons_iff.mpr (.inr h)
  · rintro (h | h)
    · exact h.trans (List.prefix_append _ _).isInfix
    · exact h.trans ⟨s ++ [c], [], by simp⟩

/-- What starts with a character that it has once stands on one side of the front of it. -/
theorem isInfix_append_cons_of_head {n s t : List Char} {c : Char} (hc : c ∉ n)
    (h : c :: n <:+: s ++ c :: t) : c :: n <:+: s ∨ c :: n <:+: c :: t := by
  induction s with
  | nil => exact .inr h
  | cons d s ih =>
    rcases List.infix_cons_iff.mp h with h | h
    · obtain ⟨rfl, hrest⟩ := List.cons_prefix_cons.mp h
      have hfront := isPrefix_of_append_cons hc hrest
      exact .inl (List.cons_prefix_cons.mpr ⟨rfl, hfront⟩).isInfix
    · exact (ih h).imp_left fun h => List.infix_cons_iff.mpr (.inr h)

/-- What has no white space in it does not reach into white space in front of a text. -/
theorem isInfix_blank_append_iff {n g s : List Char} (hn : Unbroken n) (hg : allBlank g = true) :
    n <:+: g ++ s ↔ n <:+: s := by
  refine ⟨fun h => ?_, fun h => h.trans (List.suffix_append g s).isInfix⟩
  induction g with
  | nil => exact h
  | cons c g ih =>
    have hc : c ∉ n := by
      intro hmem
      have hblank := allBlank_iff.mp hg c List.mem_cons_self
      rw [hn c hmem] at hblank
      exact Bool.noConfusion hblank
    rcases (isInfix_append_cons_iff (s := []) hc).mp h with h | h
    · exact h.trans List.nil_infix
    · exact ih (allBlank_of_cons hg) h

/-- Nor into white space behind it. -/
theorem isInfix_append_blank_iff {n s g : List Char} (hn : Unbroken n) (hg : allBlank g = true) :
    n <:+: s ++ g ↔ n <:+: s := by
  refine ⟨fun h => ?_, fun h => h.trans (List.prefix_append s g).isInfix⟩
  cases g with
  | nil => rwa [List.append_nil] at h
  | cons c g =>
    have hc : c ∉ n := by
      intro hmem
      have hblank := allBlank_iff.mp hg c List.mem_cons_self
      rw [hn c hmem] at hblank
      exact Bool.noConfusion hblank
    rcases (isInfix_append_cons_iff hc).mp h with h | h
    · exact h
    · rw [← List.append_nil g, isInfix_blank_append_iff hn (allBlank_of_cons hg)] at h
      exact h.trans List.nil_infix

/-- What has no white space in it stands in both texts. -/
theorem Respaced.isInfix {s t : List Char} (h : Respaced s t) {n : List Char} (hn : Unbroken n)
    (hs : n <:+: s) : n <:+: t := by
  induction h with
  | nil => exact hs
  | cons c h ih =>
    rcases List.infix_cons_iff.mp hs with hs | hs
    · exact ((Respaced.cons c h).isPrefix hn hs).isInfix
    · exact List.infix_cons_iff.mpr (.inr (ih hs))
  | gap hg _ hg' _ _ ih =>
    exact (isInfix_blank_append_iff hn hg').mpr (ih ((isInfix_blank_append_iff hn hg).mp hs))

/-! ## Parts and gaps -/

/-- A text consists of parts, each with white space behind it, or with nothing if it is the last. -/
inductive Separated : List (List Char) → List Char → Prop
  | nil {s : List Char} (h : allBlank s = true) : Separated [] s
  | cons {gap z s : List Char} {zs : List (List Char)} (hgap : allBlank gap = true)
    (hs : ∀ c ∈ s.head?, isBlank c = true) (h : Separated zs s) :
    Separated (z :: zs) (gap ++ (z ++ s))

/-- Each part stands in the text. -/
theorem Separated.isInfix {zs : List (List Char)} {s : List Char} (h : Separated zs s) :
    ∀ z ∈ zs, z <:+: s := by
  induction h with
  | nil => exact fun z hz => absurd hz List.not_mem_nil
  | @cons gap z s zs _ _ _ ih =>
    refine List.forall_mem_cons.mpr ⟨⟨gap, s, by simp⟩, fun w hw => (ih w hw).trans ?_⟩
    exact ((List.suffix_append z s).trans (List.suffix_append gap _)).isInfix

/-- White space in front of a text does not change its parts. -/
theorem Separated.blank_append {zs : List (List Char)} {g s : List Char} (hg : allBlank g = true)
    (h : Separated zs s) : Separated zs (g ++ s) := by
  cases h with
  | nil h => exact .nil (allBlank_append hg h)
  | cons hgap hs h =>
    rw [← List.append_assoc]
    exact .cons (allBlank_append hg hgap) hs h

/-- Nor does white space behind it. -/
theorem Separated.append_blank {zs : List (List Char)} {s h : List Char} (hs : Separated zs s)
    (hh : allBlank h = true) : Separated zs (s ++ h) := by
  induction hs with
  | nil hs => exact .nil (allBlank_append hs hh)
  | @cons gap z s zs hgap hs _ ih =>
    rw [List.append_assoc, List.append_assoc]
    refine .cons hgap ?_ ih
    intro c hc
    cases s with
    | nil => exact allBlank_iff.mp hh c (List.mem_of_mem_head? hc)
    | cons d s => exact hs c hc

/-- A second text is the first up to gaps, without the white space at the ends of the first. -/
def Reflows (s t : List Char) : Prop :=
  ∃ g m h, allBlank g = true ∧ allBlank h = true ∧ s = g ++ m ++ h ∧
    (∀ c ∈ m.head?, isBlank c = false) ∧ Respaced m t

/-- A trimmed text is the text up to the white space at its ends. -/
theorem reflows_trim (s : List Char) : Reflows s (trim s) := by
  obtain ⟨g, h, hg, hh, hs⟩ := exists_trim s
  exact ⟨g, trim s, h, hg, hh, hs, (trim_trimmed s).head, .refl _⟩

/-- What has no white space in it stands in the first text if it stands in the second. -/
theorem Reflows.isInfix {s t n : List Char} (h : Reflows s t) (hn : Unbroken n) (ht : n <:+: t) :
    n <:+: s := by
  obtain ⟨g, m, k, -, -, rfl, -, hm⟩ := h
  exact (hm.symm.isInfix hn ht).trans ⟨g, k, rfl⟩

/-- Without white space at its start a text goes on as before behind its first character. -/
theorem Reflows.of_cons {c : Char} {s t : List Char} (h : Reflows (c :: s) t)
    (hc : isBlank c = false) :
    ∃ m k t', s = m ++ k ∧ allBlank k = true ∧ t = c :: t' ∧ Respaced m t' := by
  obtain ⟨g, m, k, hg, hk, hs, -, hm⟩ := h
  have hnot : ∀ {x : List Char}, allBlank (c :: x) = false := by
    intro x
    unfold allBlank
    rw [List.all_cons, hc, Bool.false_and]
  cases g with
  | cons d g =>
    obtain rfl : c = d := (List.cons.inj hs).1
    rw [hnot] at hg
    exact Bool.noConfusion hg
  | nil =>
    rw [List.nil_append] at hs
    cases m with
    | nil =>
      rw [List.nil_append] at hs
      rw [← hs, hnot] at hk
      exact Bool.noConfusion hk
    | cons d m =>
      obtain ⟨rfl, rfl⟩ := List.cons.inj hs
      obtain ⟨t', rfl, hrest⟩ := hm.of_cons hc
      exact ⟨m, k, t', rfl, hk, rfl, hrest⟩

/-- Without white space at its ends a text differs in gaps only. -/
theorem Reflows.respaced {s t : List Char} (h : Reflows s t) (hs : Trimmed s) : Respaced s t := by
  obtain ⟨g, m, k, hg, hk, rfl, -, hm⟩ := h
  have hgnil : g = [] := by
    cases g with
    | nil => rfl
    | cons c g =>
      have hc := hs.head c rfl
      rw [allBlank_iff.mp hg c List.mem_cons_self] at hc
      exact Bool.noConfusion hc
  have hknil : k = [] := by
    rcases List.eq_nil_or_concat k with rfl | ⟨k, c, rfl⟩
    · rfl
    · have hc := hs.last c (by simp)
      rw [allBlank_iff.mp hk c (by simp)] at hc
      exact Bool.noConfusion hc
  rwa [hgnil, hknil, List.nil_append, List.append_nil]

/-- Parts with a separator between each two. -/
theorem joinWith_cons_cons (sep a b : List Char) (ls : List (List Char)) :
    joinWith sep (a :: b :: ls) = a ++ (sep ++ joinWith sep (b :: ls)) := by
  have hfold : ∀ (ls : List (List Char)) (x y : List Char),
      ls.foldl (fun acc l => acc ++ sep ++ l) (x ++ y) =
        x ++ ls.foldl (fun acc l => acc ++ sep ++ l) y := by
    intro ls
    induction ls with
    | nil => exact fun _ _ => rfl
    | cons l ls ih =>
      intro x y
      rw [List.foldl_cons, List.foldl_cons, List.append_assoc, List.append_assoc, ih,
        List.append_assoc]
  unfold joinWith
  dsimp only
  rw [List.foldl_cons, List.append_assoc, hfold, hfold]

/-- Solid parts joined are solid. -/
theorem solid_joinWith (sep : List Char) {zs : List (List Char)} (hzs : ∀ z ∈ zs, Solid z)
    (hne : zs ≠ []) : Solid (joinWith sep zs) := by
  induction zs with
  | nil => exact absurd rfl hne
  | cons z zs ih =>
    obtain ⟨hz, hrest⟩ := List.forall_mem_cons.mp hzs
    cases zs with
    | nil => exact hz
    | cons w zs =>
      have hw := ih hrest (List.cons_ne_nil _ _)
      rw [joinWith_cons_cons]
      refine ⟨fun h => hz.nonempty (List.append_eq_nil_iff.mp h).1, ?_, ?_⟩
      · intro c hc
        rw [List.head?_append_of_ne_nil _ hz.nonempty] at hc
        exact hz.trimmed.head c hc
      · intro c hc
        rw [← List.append_assoc, List.getLast?_append_of_ne_nil _ hw.nonempty] at hc
        exact hw.trimmed.last c hc

/-- The parts of a text joined by any white space make up the text up to gaps. -/
theorem Separated.reflows {zs : List (List Char)} {s : List Char} (h : Separated zs s)
    (hzs : ∀ z ∈ zs, Solid z) {sep : List Char} (hsep : allBlank sep = true) (hne : sep ≠ []) :
    Reflows s (joinWith sep zs) := by
  induction h with
  | @nil s h => exact ⟨s, [], [], h, rfl, by simp, by simp, .nil⟩
  | @cons gap z s zs hgap hs h ih =>
    have hz := hzs z List.mem_cons_self
    obtain ⟨c, z, rfl⟩ := List.exists_cons_of_ne_nil hz.nonempty
    have hc : isBlank c = false := hz.trimmed.head c rfl
    obtain ⟨g, m, k, hg, hk, rfl, hm, hrespaced⟩ := ih fun w hw => hzs w (List.mem_cons_of_mem _ hw)
    cases zs with
    | nil =>
      -- Nothing but white space follows the last part.
      obtain rfl : m = [] := hrespaced.symm.eq_nil
      refine ⟨gap, c :: z, g ++ [] ++ k, hgap, ?_, by simp, by simpa using hc, .refl _⟩
      rw [List.append_nil]
      exact allBlank_append hg hk
    | cons w zs =>
      -- The white space behind the part is the gap in front of the next.
      have hmne : m ≠ [] := by
        rintro rfl
        have hw := hzs w (List.mem_cons_of_mem _ List.mem_cons_self)
        obtain ⟨e, w, rfl⟩ := List.exists_cons_of_ne_nil hw.nonempty
        have hnil : joinWith sep ((e :: w) :: zs) = [] := hrespaced.eq_nil
        cases zs with
        | nil => exact absurd hnil nofun
        | cons v zs =>
          rw [joinWith_cons_cons] at hnil
          exact absurd hnil nofun
      have hgne : g ≠ [] := by
        rintro rfl
        obtain ⟨e, m, rfl⟩ := List.exists_cons_of_ne_nil hmne
        have hblank := hs e rfl
        rw [hm e rfl] at hblank
        exact Bool.noConfusion hblank
      refine ⟨gap, c :: z ++ (g ++ m), k, hgap, hk, by simp, by simpa using hc, ?_⟩
      rw [joinWith_cons_cons]
      exact (Respaced.refl (c :: z)).append (.gap hg hgne hsep hne hrespaced)

/-! ## Words -/

/-- White space in front of a text is in none of its words. -/
theorem words_cons_blank {c : Char} (hc : isBlank c = true) (s : List Char) :
    words (c :: s) = words s := by
  unfold words splitOn
  rw [List.foldr_cons, if_pos hc, List.filter_cons_of_neg (by simp)]

/-- White space has no words. -/
theorem words_of_blank {g : List Char} (hg : allBlank g = true) : words g = [] := by
  induction g with
  | nil => rfl
  | cons c g ih =>
    rw [words_cons_blank (allBlank_iff.mp hg c List.mem_cons_self), ih (allBlank_of_cons hg)]

/-- However much white space there is. -/
theorem words_blank_append {g : List Char} (hg : allBlank g = true) (s : List Char) :
    words (g ++ s) = words s := by
  induction g with
  | nil => rfl
  | cons c g ih =>
    rw [List.cons_append, words_cons_blank (allBlank_iff.mp hg c List.mem_cons_self),
      ih (allBlank_of_cons hg)]

/-- A word in front of white space, or at the end, is a word of the text. -/
theorem words_append {w s : List Char} (hne : w ≠ []) (hw : Unbroken w)
    (hs : ∀ c ∈ s.head?, isBlank c = true) : words (w ++ s) = w :: words s := by
  -- The cut starts with an empty part, which goes behind the word.
  have hsplit : ∃ parts, splitOn isBlank s = [] :: parts ∧ words s = parts.filter (!·.isEmpty) := by
    cases s with
    | nil => exact ⟨[], rfl, rfl⟩
    | cons c s =>
      have hc : isBlank c = true := hs c rfl
      refine ⟨splitOn isBlank s, ?_, words_cons_blank hc s⟩
      unfold splitOn
      rw [List.foldr_cons, if_pos hc]
  obtain ⟨parts, hsplit, hwords⟩ := hsplit
  have happend : splitOn isBlank (w ++ s) = w :: parts := by
    clear hne
    induction w with
    | nil => exact hsplit
    | cons c w ih =>
      have hrest := ih fun d hd => hw d (List.mem_cons_of_mem _ hd)
      unfold splitOn at hrest ⊢
      rw [List.cons_append, List.foldr_cons, hrest, if_neg (by simp [hw c List.mem_cons_self])]
  rw [words, happend, List.filter_cons_of_pos (by simpa using hne), hwords]

/-- A text starts with white space, and behind that with a word, if there is more to it. -/
theorem exists_word (s : List Char) :
    ∃ g w t, allBlank g = true ∧ Unbroken w ∧ (∀ c ∈ t.head?, isBlank c = true) ∧
      s = g ++ (w ++ t) ∧ (w = [] → t = []) := by
  refine ⟨s.takeWhile isBlank, (s.dropWhile isBlank).takeWhile (!isBlank ·),
    (s.dropWhile isBlank).dropWhile (!isBlank ·), ?_, ?_, ?_, ?_, ?_⟩
  · exact allBlank_iff.mpr fun c hc => List.mem_takeWhile_imp hc
  · intro c hc
    simpa using List.mem_takeWhile_imp hc
  · intro c hc
    have hstop := List.head?_dropWhile_not (!isBlank ·) (s.dropWhile isBlank)
    rw [hc] at hstop
    simpa using hstop
  · rw [List.takeWhile_append_dropWhile, List.takeWhile_append_dropWhile]
  · intro hempty
    have hstop := List.head?_dropWhile_not isBlank s
    cases hs : s.dropWhile isBlank with
    | nil => rfl
    | cons c rest =>
      rw [hs] at hstop hempty
      have hc : isBlank c = false := hstop
      simp [hc] at hempty

/-- A text consists of its words, which have no white space in them. -/
theorem separated_words (s : List Char) :
    Separated (words s) s ∧ ∀ w ∈ words s, w ≠ [] ∧ Unbroken w := by
  -- By induction on the length of the text, one word at a time.
  induction hn : s.length using Nat.strong_induction_on generalizing s with
  | _ n ih =>
    obtain ⟨g, w, t, hg, hw, ht, rfl, hend⟩ := exists_word s
    rw [words_blank_append hg]
    by_cases hne : w = []
    · obtain rfl := hend hne
      subst hne
      exact ⟨.nil (allBlank_append hg rfl), by simp [words, splitOn]⟩
    · have hlength : t.length < n := by
        have hpos := List.length_pos_of_ne_nil hne
        simp only [List.length_append] at hn
        omega
      obtain ⟨hseparated, hwords⟩ := ih t.length hlength t rfl
      rw [words_append hne hw ht]
      exact ⟨.cons hg ht hseparated, List.forall_mem_cons.mpr ⟨⟨hne, hw⟩, hwords⟩⟩

/-- A word is a solid part. -/
theorem solid_of_unbroken {w : List Char} (hne : w ≠ []) (hw : Unbroken w) : Solid w :=
  ⟨hne, fun c hc => hw c (List.mem_of_mem_head? hc), fun c hc => hw c (List.mem_of_getLast? hc)⟩

/-- Words with other white space between and around them are the same words. -/
theorem words_of_separated {zs : List (List Char)} {s : List Char} (h : Separated zs s)
    (hzs : ∀ z ∈ zs, z ≠ [] ∧ Unbroken z) : words s = zs := by
  induction h with
  | nil h => exact words_of_blank h
  | cons hgap hs _ ih =>
    obtain ⟨hne, hz⟩ := hzs _ List.mem_cons_self
    rw [words_blank_append hgap, words_append hne hz hs,
      ih fun w hw => hzs w (List.mem_cons_of_mem _ hw)]

/-- Parts joined by white space, with white space behind them, are the parts of the text. -/
theorem separated_joinWith {sep h : List Char} (hsep : allBlank sep = true) (hne : sep ≠ [])
    (hh : allBlank h = true) (zs : List (List Char)) : Separated zs (joinWith sep zs ++ h) := by
  induction zs with
  | nil => exact .nil hh
  | cons z zs ih =>
    have hz : ∀ s, (∀ c ∈ s.head?, isBlank c = true) → Separated zs s →
        Separated (z :: zs) (z ++ s) := fun s hs h => @Separated.cons [] z s zs rfl hs h
    have hhead : ∀ g : List Char, allBlank g = true → ∀ c ∈ g.head?, isBlank c = true :=
      fun g hg c hc => allBlank_iff.mp hg c (List.mem_of_mem_head? hc)
    cases zs with
    | nil => exact hz h (hhead h hh) (.nil hh)
    | cons w zs =>
      rw [joinWith_cons_cons, List.append_assoc, List.append_assoc]
      refine hz _ ?_ (ih.blank_append hsep)
      intro c hc
      rw [List.head?_append_of_ne_nil _ hne] at hc
      exact hhead sep hsep c hc

end CodeTidy.Text
