import CodeTidy.Proofs.Detect.Sample
import CodeTidy.Proofs.Pattern.Visible
import Mathlib.Algebra.GroupWithZero.Nat
import Mathlib.Data.List.Basic
import Mathlib.Data.List.Nodup
import Mathlib.Data.List.Sort

/-!
# The ranking of languages

The rules that match a text give each language its evidence: the sum of their weights, their number,
and the place of the first of them. `Ranked` says what a ranking is without regard to how it is
found: each language once, in a strict order. The order goes by the place of the first rule that
matches, and yet it is the order of the languages in the table, because the rules of a language
stand together. So the evidence can be sorted from whatever order it comes in. The language detected
is the greatest that is accepted.
-/

namespace CodeTidy.Detect

/-! ## Evidence -/

/-- The matching rules that speak for a language. -/
def speaking (ms : List (Rule × ℕ)) (language : String) : List (Rule × ℕ) :=
  ms.filter (·.1.language == language)

/-- The evidence for a language is that of the matching rules that speak for it. -/
structure Collects (ms : List (Rule × ℕ)) (e : Evidence) : Prop where
  score : e.score = ((speaking ms e.language).map (·.1.weight)).sum
  patterns : e.patterns = (speaking ms e.language).length
  first : (speaking ms e.language).head?.map Prod.snd = some e.firstRule

variable {ms : List (Rule × ℕ)} {r : Rule} {i : ℕ} {e e' : Evidence}

/-- There is just one such evidence for a language. -/
theorem Collects.unique (h : Collects ms e) (h' : Collects ms e')
    (hlanguage : e.language = e'.language) : e = e' := by
  obtain ⟨language, score, patterns, firstRule⟩ := e
  obtain ⟨language', score', patterns', firstRule'⟩ := e'
  obtain rfl : language = language' := hlanguage
  obtain rfl : score = score' := h.score.trans h'.score.symm
  obtain rfl : patterns = patterns' := h.patterns.trans h'.patterns.symm
  obtain rfl : firstRule = firstRule' := Option.some.inj (h.first.symm.trans h'.first)
  rfl

/-- The first rule of the evidence for a language is one that speaks for it. -/
theorem Collects.exists_first (h : Collects ms e) :
    ∃ m ∈ ms, m.1.language = e.language ∧ m.2 = e.firstRule := by
  obtain ⟨m, hm, hfirst⟩ := Option.map_eq_some_iff.mp h.first
  obtain ⟨hmem, hlanguage⟩ := List.mem_filter.mp (List.mem_of_head? hm)
  exact ⟨m, hmem, beq_iff_eq.mp hlanguage, hfirst⟩

/-- Another matching rule speaks for its own language only. -/
theorem speaking_snoc (ms : List (Rule × ℕ)) (r : Rule) (i : ℕ) (language : String) :
    speaking (ms ++ [(r, i)]) language =
      speaking ms language ++ if r.language = language then [(r, i)] else [] := by
  unfold speaking
  rw [List.filter_append]
  by_cases h : r.language = language <;> simp [h]

/-- It leaves the evidence for other languages, -/
theorem Collects.snoc_other (h : Collects ms e) (hne : e.language ≠ r.language) :
    Collects (ms ++ [(r, i)]) e := by
  have heq : speaking (ms ++ [(r, i)]) e.language = speaking ms e.language := by
    rw [speaking_snoc, if_neg hne.symm, List.append_nil]
  exact ⟨by rw [heq, h.score], by rw [heq, h.patterns], by rw [heq, h.first]⟩

/-- adds to the evidence for its own, -/
theorem Collects.snoc_same (h : Collects ms e) (heq : e.language = r.language) :
    Collects (ms ++ [(r, i)])
      { e with score := e.score + r.weight, patterns := e.patterns + 1 } := by
  have hsnoc : speaking (ms ++ [(r, i)]) e.language = speaking ms e.language ++ [(r, i)] := by
    rw [speaking_snoc, if_pos heq.symm]
  refine ⟨?_, ?_, ?_⟩
  · show e.score + r.weight = _
    rw [hsnoc, List.map_append, List.sum_append, h.score, List.map_singleton,
      List.sum_singleton]
  · show e.patterns + 1 = _
    rw [hsnoc, List.length_append, h.patterns, List.length_singleton]
  · obtain ⟨m, hm, hfirst⟩ := Option.map_eq_some_iff.mp h.first
    show ((speaking (ms ++ [(r, i)]) e.language).head?).map Prod.snd = some e.firstRule
    rw [hsnoc, List.head?_append, hm, Option.some_or, Option.map_some, hfirst]

/-- or is the first evidence for it. -/
theorem collects_new (h : speaking ms r.language = []) :
    Collects (ms ++ [(r, i)]) ⟨r.language, r.weight, 1, i⟩ := by
  have hsnoc : speaking (ms ++ [(r, i)]) r.language = [(r, i)] := by
    rw [speaking_snoc, h, if_pos rfl, List.nil_append]
  refine ⟨?_, ?_, ?_⟩ <;> simp only [hsnoc] <;> simp

/-- Each language has one evidence in the list, that of the matching rules. -/
structure Gathers (ms : List (Rule × ℕ)) (found : List Evidence) : Prop where
  once : (found.map Evidence.language).Nodup
  collects : ∀ e ∈ found, Collects ms e
  all : ∀ m ∈ ms, m.1.language ∈ found.map Evidence.language

/-- Adding a rule leaves the languages, but for its own if it is new. -/
theorem languages_add (found : List Evidence) (i : ℕ) (language : String) (weight : ℕ) :
    (Evidence.add found i language weight).map Evidence.language =
      if language ∈ found.map Evidence.language then found.map Evidence.language
      else found.map Evidence.language ++ [language] := by
  induction found with
  | nil => rfl
  | cons first rest ih =>
    by_cases hfirst : first.language = language
    · simp [Evidence.add, hfirst]
    · rw [Evidence.add, if_neg (by simpa using hfirst), List.map_cons, ih]
      by_cases hrest : language ∈ rest.map Evidence.language
      · rw [if_pos hrest, if_pos (by simp [hrest]), List.map_cons]
      · rw [if_neg hrest, if_neg (by simpa [Ne.symm hfirst] using hrest), List.map_cons,
          List.cons_append]

/-- Adding a rule leaves the evidence for other languages, and adds to that for its own or is the
first for it. -/
theorem mem_add {found : List Evidence} (honce : (found.map Evidence.language).Nodup)
    {i : ℕ} {language : String} {weight : ℕ}
    (he : e ∈ Evidence.add found i language weight) :
    (e ∈ found ∧ e.language ≠ language) ∨
      (∃ old ∈ found, old.language = language ∧
        e = { old with score := old.score + weight, patterns := old.patterns + 1 }) ∨
      (language ∉ found.map Evidence.language ∧ e = ⟨language, weight, 1, i⟩) := by
  induction found with
  | nil => exact .inr (.inr ⟨List.not_mem_nil, List.mem_singleton.mp he⟩)
  | cons first rest ih =>
    rw [List.map_cons, List.nodup_cons] at honce
    by_cases hfirst : first.language = language
    · rw [Evidence.add, if_pos (by simpa using hfirst)] at he
      rcases List.mem_cons.mp he with rfl | hrest
      · exact .inr (.inl ⟨first, List.mem_cons_self, hfirst, rfl⟩)
      · -- The language does not stand a second time behind the evidence that grows.
        refine .inl ⟨List.mem_cons_of_mem _ hrest, ?_⟩
        rintro rfl
        exact honce.1 (hfirst ▸ List.mem_map_of_mem hrest)
    · rw [Evidence.add, if_neg (by simpa using hfirst)] at he
      rcases List.mem_cons.mp he with rfl | hrest
      · exact .inl ⟨List.mem_cons_self, hfirst⟩
      · rcases ih honce.2 hrest with ⟨hmem, hne⟩ | ⟨old, hold, hsame, rfl⟩ | ⟨hnew, rfl⟩
        · exact .inl ⟨List.mem_cons_of_mem _ hmem, hne⟩
        · exact .inr (.inl ⟨old, List.mem_cons_of_mem _ hold, hsame, rfl⟩)
        · refine .inr (.inr ⟨?_, rfl⟩)
          rw [List.map_cons, List.mem_cons, not_or]
          exact ⟨Ne.symm hfirst, hnew⟩

/-- Adding a rule that matches gathers its evidence. -/
theorem Gathers.add {found : List Evidence} (h : Gathers ms found) (r : Rule) (i : ℕ) :
    Gathers (ms ++ [(r, i)]) (Evidence.add found i r.language r.weight) := by
  have hmem : ∀ language, language ∈ found.map Evidence.language ∨ language = r.language →
      language ∈ (Evidence.add found i r.language r.weight).map Evidence.language := by
    intro language hlanguage
    rw [languages_add]
    split_ifs with hold
    · rcases hlanguage with hfound | rfl
      · exact hfound
      · exact hold
    · exact List.mem_append.mpr (hlanguage.imp_right List.mem_singleton.mpr)
  refine ⟨?_, ?_, ?_⟩
  · rw [languages_add]
    split_ifs with hold
    · exact h.once
    · exact List.nodup_append.mpr ⟨h.once, List.nodup_singleton _, by
        rintro a ha b hb rfl
        exact hold (List.mem_singleton.mp hb ▸ ha)⟩
  · intro e he
    rcases mem_add h.once he with ⟨hfound, hne⟩ | ⟨old, hold, hsame, rfl⟩ | ⟨hnew, rfl⟩
    · exact (h.collects e hfound).snoc_other hne
    · exact (h.collects old hold).snoc_same hsame
    · refine collects_new (List.filter_eq_nil_iff.mpr fun m hm => ?_)
      rw [beq_iff_eq]
      intro heq
      exact hnew (heq ▸ h.all m hm)
  · intro m hm
    rcases List.mem_append.mp hm with hold | hlast
    · exact hmem _ (.inl (h.all m hold))
    · exact hmem _ (.inr (by rw [List.mem_singleton.mp hlast]))

/-- The evidence of all rules that match, in the order of their languages' first rules. -/
def gathered (ms : List (Rule × ℕ)) : List Evidence :=
  ms.foldl (fun found (r, i) => Evidence.add found i r.language r.weight) []

/-- All of it is gathered. -/
theorem gathers_gathered (ms : List (Rule × ℕ)) : Gathers ms (gathered ms) := by
  induction ms using List.reverseRecOn with
  | nil => exact ⟨List.nodup_nil, by simp [gathered], by simp⟩
  | append_singleton ms m ih =>
    have hlast : gathered (ms ++ [m]) =
        Evidence.add (gathered ms) m.2 m.1.language m.1.weight := by
      unfold gathered
      rw [List.foldl_append]
      rfl
    rw [hlast]
    exact ih.add m.1 m.2

/-! ## The order -/

/-- The place of a language in the table, by the first rule for it. -/
def tableRank (language : String) : ℕ := languages.idxOf language

/-- One detection ranks above another: by the score, then by the number of rules, and then by the
place of the language in the table. -/
def Outranks (a b : Detection) : Prop :=
  b.score < a.score ∨ b.score = a.score ∧
    (b.patterns < a.patterns ∨ b.patterns = a.patterns ∧
      tableRank a.language < tableRank b.language)

/-- No two detections outrank each other. -/
theorem Outranks.asymm {a b : Detection} (h : Outranks a b) : ¬Outranks b a := by
  unfold Outranks at *
  omega

/-- The order of evidence, where the first rule is the last thing to tell. -/
theorem ranksBefore_iff {a b : Evidence} :
    a.ranksBefore b = true ↔ b.score < a.score ∨ b.score = a.score ∧
      (b.patterns < a.patterns ∨ b.patterns = a.patterns ∧ a.firstRule ≤ b.firstRule) := by
  unfold Evidence.ranksBefore
  split_ifs with hscore hpatterns
  all_goals
    simp only [bne_iff_ne, ne_eq, not_not] at *
    simp only [decide_eq_true_eq]
    omega

/-- The rules of a language stand together: the places of their languages ascend. -/
theorem tableRank_ascends : (rules.map fun r => tableRank r.language).Pairwise (· ≤ ·) := by
  decide +kernel

/-- So of two rules for different languages the one that comes first is that of the language that
comes first. -/
theorem le_iff_tableRank_lt {m m' : Rule × ℕ} (hm : m ∈ rules.zipIdx) (hm' : m' ∈ rules.zipIdx)
    (hne : m.1.language ≠ m'.1.language) :
    m.2 ≤ m'.2 ↔ tableRank m.1.language < tableRank m'.1.language := by
  have hascends : ∀ {m m' : Rule × ℕ}, m ∈ rules.zipIdx → m' ∈ rules.zipIdx → m.2 < m'.2 →
      tableRank m.1.language ≤ tableRank m'.1.language := by
    rintro ⟨r, i⟩ ⟨r', j⟩ hr hr' hlt
    obtain ⟨hi, hri⟩ := List.getElem?_eq_some_iff.mp (List.mem_zipIdx_iff_getElem?.mp hr)
    obtain ⟨hj, hrj⟩ := List.getElem?_eq_some_iff.mp (List.mem_zipIdx_iff_getElem?.mp hr')
    have hpair := List.pairwise_iff_getElem.mp tableRank_ascends i j
      (by rwa [List.length_map]) (by rwa [List.length_map]) hlt
    rw [List.getElem_map, List.getElem_map] at hpair
    dsimp only at hri hrj
    rwa [hri, hrj] at hpair
  have hrank : tableRank m.1.language ≠ tableRank m'.1.language := by
    intro heq
    refine hne ((List.idxOf_inj ?_).mp heq)
    exact List.mem_eraseDups.mpr (List.mem_map_of_mem (List.fst_mem_of_mem_zipIdx hm))
  rcases Nat.lt_trichotomy m.2 m'.2 with hlt | heq | hgt
  · have := hascends hm hm' hlt
    omega
  · obtain ⟨r, i⟩ := m
    obtain ⟨r', j⟩ := m'
    obtain rfl : i = j := heq
    rw [List.mem_zipIdx_iff_getElem?] at hm hm'
    obtain rfl : r = r' := Option.some.inj (hm.symm.trans hm')
    exact absurd rfl hne
  · have := hascends hm' hm hgt
    omega

/-- A ranking of the languages that the matching rules speak for: each language once, with the sum
of the weights of its matching rules and their number, in a strict order. -/
structure Ranked (ms : List (Rule × ℕ)) (ds : List Detection) : Prop where
  once : (ds.map Detection.language).Nodup
  languages : ∀ language,
    language ∈ ds.map Detection.language ↔ ∃ m ∈ ms, m.1.language = language
  evidence : ∀ d ∈ ds, d.source = .patterns ∧
    d.score = ((speaking ms d.language).map (·.1.weight)).sum ∧
    d.patterns = (speaking ms d.language).length
  ordered : ds.Pairwise Outranks

/-- Evidence of rules of the table is in order just if its detections are, for different
languages. -/
theorem outranks_of_ranksBefore (hms : ms ⊆ rules.zipIdx) (he : Collects ms e)
    (he' : Collects ms e') (hne : e.language ≠ e'.language) (h : e.ranksBefore e' = true) :
    Outranks e.detection e'.detection := by
  obtain ⟨m, hm, hlanguage, hfirst⟩ := he.exists_first
  obtain ⟨m', hm', hlanguage', hfirst'⟩ := he'.exists_first
  have hrank := le_iff_tableRank_lt (hms hm) (hms hm')
    (by rw [hlanguage, hlanguage']; exact hne)
  rw [hfirst, hfirst', hlanguage, hlanguage'] at hrank
  rw [ranksBefore_iff, hrank] at h
  exact h

/-- Evidence that was gathered, in whatever order it comes, is sorted into the same ranking. -/
theorem ranked_mergeSort (hms : ms ⊆ rules.zipIdx) {found : List Evidence}
    (h : Gathers ms found) :
    Ranked ms ((found.mergeSort Evidence.ranksBefore).map Evidence.detection) := by
  have hperm := List.mergeSort_perm found Evidence.ranksBefore
  have hlanguages : ((found.mergeSort Evidence.ranksBefore).map Evidence.detection).map
      Detection.language = (found.mergeSort Evidence.ranksBefore).map Evidence.language := by
    rw [List.map_map]
    rfl
  have honce : ((found.mergeSort Evidence.ranksBefore).map Evidence.language).Nodup :=
    (hperm.map Evidence.language).nodup_iff.mpr h.once
  have hcollects : ∀ e ∈ found.mergeSort Evidence.ranksBefore, Collects ms e :=
    fun e he => h.collects e (hperm.mem_iff.mp he)
  refine ⟨by rwa [hlanguages], ?_, ?_, ?_⟩
  · intro language
    rw [hlanguages, (hperm.map Evidence.language).mem_iff]
    constructor
    · intro hmem
      obtain ⟨e, he, rfl⟩ := List.mem_map.mp hmem
      obtain ⟨m, hm, hlanguage, -⟩ := (h.collects e he).exists_first
      exact ⟨m, hm, hlanguage⟩
    · rintro ⟨m, hm, rfl⟩
      exact h.all m hm
  · intro d hd
    obtain ⟨e, he, rfl⟩ := List.mem_map.mp hd
    exact ⟨rfl, (hcollects e he).score, (hcollects e he).patterns⟩
  · have hsorted : (found.mergeSort Evidence.ranksBefore).Pairwise
        (fun a b => a.ranksBefore b = true) := by
      refine List.pairwise_mergeSort ?_ ?_ found
      · intro a b c hab hbc
        rw [ranksBefore_iff] at *
        omega
      · intro a b
        rw [Bool.or_eq_true, ranksBefore_iff, ranksBefore_iff]
        omega
    rw [List.pairwise_map]
    refine ((List.pairwise_map.mp honce).and hsorted).imp_of_mem ?_
    rintro a b ha hb ⟨hne, hab⟩
    exact outranks_of_ranksBefore hms (hcollects a ha) (hcollects b hb) hne hab

/-- There is only one ranking. -/
theorem Ranked.unique {ds ds' : List Detection} (h : Ranked ms ds) (h' : Ranked ms ds') :
    ds = ds' := by
  -- A detection of a ranking is told by its language.
  have hsub : ∀ {ds ds' : List Detection}, Ranked ms ds → Ranked ms ds' →
      ∀ d ∈ ds, d ∈ ds' := by
    intro ds ds' h h' d hd
    have hmem : d.language ∈ ds'.map Detection.language :=
      (h'.languages _).mpr ((h.languages _).mp (List.mem_map_of_mem hd))
    obtain ⟨d', hd', hlanguage⟩ := List.mem_map.mp hmem
    obtain ⟨hsource, hscore, hpatterns⟩ := h.evidence d hd
    obtain ⟨hsource', hscore', hpatterns'⟩ := h'.evidence d' hd'
    rw [hlanguage] at hscore' hpatterns'
    obtain rfl : d' = d := by
      obtain ⟨language, score, patterns, source⟩ := d
      obtain ⟨language', score', patterns', source'⟩ := d'
      obtain rfl : language' = language := hlanguage
      obtain rfl : score' = score := hscore'.trans hscore.symm
      obtain rfl : patterns' = patterns := hpatterns'.trans hpatterns.symm
      obtain rfl : source' = source := hsource'.trans hsource.symm
      rfl
    exact hd'
  have hperm : ds.Perm ds' :=
    (List.perm_ext_iff_of_nodup h.once.of_map h'.once.of_map).mpr fun d =>
      ⟨hsub h h' d, hsub h' h d⟩
  refine hperm.eq_of_pairwise ?_ h.ordered h'.ordered
  exact fun a b _ _ hab hba => absurd hba hab.asymm

/-! ## Detection -/

/-- A pattern is written by the characters of its string, which are at hand in a string that is
written out. -/
theorem rule_pattern {language : String} {weight : ℕ} {cs : List Char} :
    (rule language weight (String.ofList cs)).pattern = (Pattern.ofChars? cs).getD .fail := by
  unfold rule
  rw [Pattern.ofString?_ofList]

/-- So these tell whether it needs a character that is not white space. -/
theorem rule_needsVisible {language : String} {weight : ℕ} {cs : List Char}
    (h : ((Pattern.ofChars? cs).getD .fail).needsVisible = true) :
    (rule language weight (String.ofList cs)).pattern.needsVisible = true := by
  rwa [rule_pattern]

/-- And they tell whether it is found in a text. -/
theorem rule_isFoundIn {language : String} {weight : ℕ} {cs text : List Char} {found : Bool}
    (h : ((Pattern.ofChars? cs).getD .fail).isFoundIn text = found) :
    (rule language weight (String.ofList cs)).pattern.isFoundIn text = found := by
  rwa [rule_pattern]

/-- Every rule asks for a character that is not white space. -/
theorem rules_needVisible : ∀ r ∈ rules, r.pattern.needsVisible = true := by
  unfold rules
  repeat' refine List.forall_mem_cons.mpr ⟨rule_needsVisible (by decide +kernel), ?_⟩
  exact List.forall_mem_nil _

/-- So there is no evidence in white space. -/
theorem scores_blank {text : List Char} (h : Text.allBlank (sample text) = true) :
    scores text = [] := by
  have hnone : matchingRules (sample text) = [] := by
    refine List.filter_eq_nil_iff.mpr ?_
    rintro ⟨r, i⟩ hr
    have hvisible := rules_needVisible r (List.fst_mem_of_mem_zipIdx hr)
    simp [Pattern.isFoundIn_blank hvisible h]
  unfold scores
  rw [hnone]
  simp [ranking]

/-- A language is accepted with two rules for it, or with a score of eight. -/
def Accepted (d : Detection) : Prop := 2 ≤ d.patterns ∨ 8 ≤ d.score

/-- The answer is the accepted detection that outranks all others, or nothing if there is none. -/
def Best (ds : List Detection) : Option Detection → Prop
  | some d => d ∈ ds ∧ Accepted d ∧ ∀ d' ∈ ds, Accepted d' → d' = d ∨ Outranks d d'
  | none => ∀ d ∈ ds, ¬Accepted d

/-- The first accepted detection of a ranking is the best. -/
theorem Ranked.best {ds : List Detection} (h : Ranked ms ds) :
    Best ds (ds.find? Detection.isCandidate) := by
  have haccepted : ∀ d ∈ ds, (d.isCandidate = true ↔ Accepted d) := by
    intro d hd
    unfold Detection.isCandidate Accepted
    rw [(h.evidence d hd).1]
    rw [Bool.or_eq_true, decide_eq_true_eq, decide_eq_true_eq]
    rfl
  cases hfind : ds.find? Detection.isCandidate with
  | none =>
    intro d hd hd'
    have hnot := List.find?_eq_none.mp hfind d hd
    exact hnot ((haccepted d hd).mpr hd')
  | some d =>
    obtain ⟨hd, above, below, rfl, habove⟩ := List.find?_eq_some_iff_append.mp hfind
    have hmem : d ∈ above ++ d :: below := by simp
    refine ⟨hmem, (haccepted d hmem).mp hd, ?_⟩
    intro d' hd' hd'a
    rcases List.mem_append.mp hd' with hin | hin
    · have hnot := habove d' hin
      rw [(haccepted d' hd').mpr hd'a] at hnot
      exact absurd hnot (by decide)
    · rcases List.mem_cons.mp hin with rfl | hbelow
      · exact .inl rfl
      · have hordered := (List.pairwise_append.mp h.ordered).2.1
        exact .inr ((List.pairwise_cons.mp hordered).1 d' hbelow)

/-- The ranking of the rules of a text that match. -/
theorem ranked_ranking (keeps : Rule × ℕ → Bool) {found : List Evidence}
    (h : found.Perm (gathered (rules.zipIdx.filter keeps))) :
    (found.mergeSort Evidence.ranksBefore).map Evidence.detection =
        ranking (rules.zipIdx.filter keeps) ∧
      Ranked (rules.zipIdx.filter keeps) (ranking (rules.zipIdx.filter keeps)) := by
  have hsubset : rules.zipIdx.filter keeps ⊆ rules.zipIdx := List.filter_sublist.subset
  have hgathers := gathers_gathered (rules.zipIdx.filter keeps)
  have hfound : Gathers (rules.zipIdx.filter keeps) found :=
    ⟨(h.map Evidence.language).nodup_iff.mpr hgathers.once,
      fun e he => hgathers.collects e (h.mem_iff.mp he),
      fun m hm => (h.map Evidence.language).mem_iff.mpr (hgathers.all m hm)⟩
  have hranked : Ranked (rules.zipIdx.filter keeps) (ranking (rules.zipIdx.filter keeps)) :=
    ranked_mergeSort hsubset hgathers
  exact ⟨(ranked_mergeSort hsubset hfound).unique hranked, hranked⟩

/-- Whatever rules match and in whatever order their evidence comes, it is sorted into the one
ranking of the languages that they speak for. The scores of a text are the ranking of the rules that
match its sample, the longest prefix within the budget, and the language detected is the best of
them, unless the sample is a container of JSON. Texts with the same sample have the same scores and
the same language; and what follows a text that is longer than its sample leaves the sample. -/
theorem detect_ranks (text : List Char) :
    (∀ (keeps : Rule × ℕ → Bool) (found : List Evidence),
      found.Perm (gathered (rules.zipIdx.filter keeps)) →
        (found.mergeSort Evidence.ranksBefore).map Evidence.detection =
            ranking (rules.zipIdx.filter keeps) ∧
          Ranked (rules.zipIdx.filter keeps) (ranking (rules.zipIdx.filter keeps))) ∧
      Ranked (matchingRules (sample text)) (scores text) ∧
      (isJsonContainer (sample text) = false → Best (scores text) (detect text)) ∧
      LongestWithin sampleBytes text (sample text) ∧
      (∀ other, sample other = sample text →
        scores other = scores text ∧ detect other = detect text) ∧
      (sample text ≠ text → ∀ more, sample (text ++ more) = sample text) := by
  have hranked : Ranked (matchingRules (sample text)) (scores text) :=
    (ranked_ranking _ (List.Perm.refl _)).2
  refine ⟨fun keeps found => ranked_ranking keeps, hranked, ?_, takeBytes_longest sampleBytes text,
    ?_, fun hcut more => sample_append hcut more⟩
  · intro hjson
    have hsame : scores (sample text) = scores text := by
      unfold scores
      rw [sample_sample]
    unfold detect
    dsimp only
    rw [hjson, if_neg Bool.false_ne_true, hsame]
    split_ifs with hblank
    · rw [scores_blank hblank]
      exact fun d hd => absurd hd List.not_mem_nil
    · exact hranked.best
  · intro other hother
    unfold scores detect
    rw [hother]
    exact ⟨rfl, rfl⟩

/-- What holds of the first rule and its index and of those behind it holds of all. -/
theorem forall_zipIdx_cons {P : Rule × ℕ → Prop} {r : Rule} {rs : List Rule} {i : ℕ} (h : P (r, i))
    (hrest : ∀ m ∈ rs.zipIdx (i + 1), P m) : ∀ m ∈ (r :: rs).zipIdx i, P m := by
  rw [List.zipIdx_cons]
  exact List.forall_mem_cons.mpr ⟨h, hrest⟩

/-- A text with an assignment to an attribute, with `None` and with a variable. -/
def attributeText : List Char := "self.a = None\nlet b = 0".toList

/-- Two rules for Python match it and one for JavaScript, which is the first in the table. -/
theorem matchingRules_attributeText :
    matchingRules attributeText = rules.zipIdx.filter fun m => [0, 16, 18].contains m.2 := by
  have hfound : ∀ m ∈ rules.zipIdx,
      m.1.pattern.isFoundIn attributeText = [0, 16, 18].contains m.2 := by
    unfold rules
    repeat' refine forall_zipIdx_cons (rule_isFoundIn (by decide +kernel)) ?_
    exact fun m hm => absurd hm List.not_mem_nil
  exact List.filter_congr hfound

/-- Of two languages with evidence the second in the table is the first in rank, and the other is
not accepted. What follows a text that is too long is not looked at. -/
theorem detect_ranks_python :
    let long := List.replicate (sampleBytes + 1) 'x'
    scores attributeText = [⟨"python", 6, 2, .patterns⟩, ⟨"javascript", 3, 1, .patterns⟩] ∧
      isJsonContainer (sample attributeText) = false ∧
      detect attributeText = some ⟨"python", 6, 2, .patterns⟩ ∧
      sample long ≠ long ∧ sample (long ++ attributeText) = sample long ∧
      scores (long ++ attributeText) = scores long ∧
      detect (long ++ attributeText) = detect long := by
  intro long
  have hjson : isJsonContainer (sample attributeText) = false := by decide +kernel
  have hlong : sample long ≠ long := sample_ne_of_length (by rw [List.length_replicate]; omega)
  obtain ⟨hrank, -, hbest, -⟩ := detect_ranks attributeText
  obtain ⟨-, -, -, -, hsame, hmore⟩ := detect_ranks long
  have hsample : sample attributeText = attributeText := by decide +kernel
  have hperm : [⟨"python", 6, 2, 16⟩, ⟨"javascript", 3, 1, 0⟩].Perm
      (gathered (matchingRules (sample attributeText))) := by
    have hgathered : gathered (rules.zipIdx.filter fun m => [0, 16, 18].contains m.2) =
        [⟨"javascript", 3, 1, 0⟩, ⟨"python", 6, 2, 16⟩] := by
      decide +kernel
    rw [hsample, matchingRules_attributeText, hgathered]
    exact .swap _ _ _
  have hscores : scores attributeText =
      [⟨"python", 6, 2, .patterns⟩, ⟨"javascript", 3, 1, .patterns⟩] := by
    refine (hrank _ _ hperm).1.symm.trans ?_
    rw [List.mergeSort_of_pairwise (by decide)]
    rfl
  have hdetected : detect attributeText = some ⟨"python", 6, 2, .patterns⟩ := by
    have hbest := hbest hjson
    rw [hscores] at hbest
    cases hfound : detect attributeText with
    | none =>
      rw [hfound] at hbest
      exact absurd (.inl (by decide)) (hbest _ List.mem_cons_self)
    | some d =>
      rw [hfound] at hbest
      obtain ⟨hmem, haccepted, -⟩ := hbest
      rcases List.mem_cons.mp hmem with rfl | hmem
      · rfl
      · obtain rfl := List.mem_singleton.mp hmem
        unfold Accepted at haccepted
        exact absurd haccepted (by decide)
  exact ⟨hscores, hjson, hdetected, hlong, hmore hlong attributeText,
    hsame _ (hmore hlong attributeText)⟩

end CodeTidy.Detect
