import CodeTidy.Detect.Page
import CodeTidy.Proofs.Registry.Builtin
import Mathlib.Data.List.Basic

/-!
# Whatever is detected can be formatted

A language is detected by the rules, as a JSON document, by a name of a file or by a type of
content. Each of these ways ends in a table, and all tables give canonical languages, which the
built-in backends bind. So no language is detected that a request would then be refused for.
-/

namespace CodeTidy.Detect

/-! ## Evidence -/

/-- Adding a rule to the evidence brings no other language than that of the rule. -/
theorem language_of_mem_add {found : List Evidence} {index weight : ℕ} {language : String}
    {e : Evidence} (h : e ∈ Evidence.add found index language weight) :
    e.language = language ∨ ∃ e' ∈ found, e'.language = e.language := by
  induction found with
  | nil =>
    obtain rfl := List.mem_singleton.mp h
    exact .inl rfl
  | cons first rest ih =>
    unfold Evidence.add at h
    split_ifs at h with hsame
    · rcases List.mem_cons.mp h with rfl | hrest
      · exact .inl (beq_iff_eq.mp hsame)
      · exact .inr ⟨e, List.mem_cons_of_mem _ hrest, rfl⟩
    · rcases List.mem_cons.mp h with rfl | hrest
      · exact .inr ⟨e, List.mem_cons_self, rfl⟩
      · refine (ih hrest).imp_right ?_
        rintro ⟨e', he', heq⟩
        exact ⟨e', List.mem_cons_of_mem _ he', heq⟩

/-- The evidence of rules is for their languages. -/
theorem language_of_mem_foldl {matching : List (Rule × ℕ)} {found : List Evidence} {e : Evidence}
    (h : e ∈ matching.foldl (fun found (r, index) => Evidence.add found index r.language r.weight)
      found) :
    (∃ m ∈ matching, m.1.language = e.language) ∨ ∃ e' ∈ found, e'.language = e.language := by
  induction matching generalizing found with
  | nil => exact .inr ⟨e, h, rfl⟩
  | cons first rest ih =>
    rcases ih h with ⟨m, hm, heq⟩ | ⟨e', he', heq⟩
    · exact .inl ⟨m, List.mem_cons_of_mem _ hm, heq⟩
    · rcases language_of_mem_add he' with hnew | ⟨old, hold, hlanguage⟩
      · exact .inl ⟨first, List.mem_cons_self, hnew.symm.trans heq⟩
      · exact .inr ⟨old, hold, hlanguage.trans heq⟩

/-- A language with evidence is that of a rule. -/
theorem scores_language {text : List Char} {d : Detection} (h : d ∈ scores text) :
    ∃ r ∈ rules, r.language = d.language := by
  unfold scores ranking at h
  obtain ⟨e, he, rfl⟩ := List.mem_map.mp h
  rw [List.mem_mergeSort] at he
  rcases language_of_mem_foldl he with ⟨m, hm, heq⟩ | ⟨e', he', -⟩
  · exact ⟨m.1, List.fst_mem_of_mem_zipIdx (List.mem_of_mem_filter hm), heq⟩
  · exact absurd he' List.not_mem_nil

/-! ## Tables -/

/-- The rules are for canonical languages. -/
theorem rules_canonical : ∀ name ∈ rules.map Rule.language,
    name ∈ Language.aliases.map Prod.snd := by
  decide +kernel

/-- The table of content types gives canonical languages. -/
theorem codeTypes_canonical : ∀ name ∈ codeTypes.map Prod.snd,
    name ∈ Language.aliases.map Prod.snd := by
  decide +kernel

/-- JSON and XML are canonical languages. -/
theorem markup_canonical : ∀ name ∈ ["json", "xml"], name ∈ Language.canonical := by
  decide +kernel

/-! ## Detection -/

/-- A language detected in a text is canonical. -/
theorem detect_canonical {text : List Char} {d : Detection} (h : detect text = some d) :
    d.language ∈ Language.canonical := by
  unfold detect at h
  dsimp only at h
  split_ifs at h with hblank hjson
  · obtain rfl := Option.some.inj h
    exact markup_canonical "json" (by simp)
  · obtain ⟨r, hr, heq⟩ := scores_language (List.mem_of_find?_eq_some h)
    rw [← heq, Language.mem_canonical]
    exact rules_canonical r.language (List.mem_map_of_mem hr)

/-- A language detected in a file is canonical. -/
theorem detectFile_canonical {name : String} {text : List Char} {d : Detection}
    (h : detectFile name text = some d) : d.language ∈ Language.canonical := by
  unfold detectFile at h
  cases hpath : Language.ofPath? name with
  | none =>
    rw [hpath] at h
    exact detect_canonical h
  | some language =>
    rw [hpath] at h
    obtain rfl := Option.some.inj h
    exact Language.ofPath?_canonical hpath

/-- The language of a type of content is canonical. -/
theorem languageOfType_canonical {contentType language : String}
    (h : languageOfType contentType = some language) : language ∈ Language.canonical := by
  unfold languageOfType at h
  dsimp only at h
  split at h
  next l htype =>
    obtain rfl := Option.some.inj h
    exact Language.mem_canonical_of_lookup codeTypes_canonical htype
  next =>
    split_ifs at h
    · obtain rfl := Option.some.inj h
      exact markup_canonical "json" (by simp)
    · obtain rfl := Option.some.inj h
      exact markup_canonical "xml" (by simp)

/-- A verdict names a language just if it is that the page is code, and the language is
canonical. -/
structure Verdict.Sound (v : Verdict) : Prop where
  named : v.isCode = v.language.isSome
  canonical : ∀ language, v.language = some language → language ∈ Language.canonical

/-- The verdict that a page is no code is sound. -/
theorem Verdict.other_sound (reason : Reason) : (Verdict.other reason).Sound := ⟨rfl, nofun⟩

/-- The verdict that a page is code of a canonical language is sound. -/
theorem Verdict.code_sound {language : String} (h : language ∈ Language.canonical)
    (reason : Reason) : (Verdict.code language reason).Sound := by
  refine ⟨rfl, ?_⟩
  intro l hl
  obtain rfl := Option.some.inj hl
  exact h

/-- The verdict on a page is sound. -/
theorem classify_sound (page : Page) : (classify page).Sound := by
  unfold classify
  split
  next => exact Verdict.other_sound .empty
  split
  next => exact Verdict.other_sound .tooLarge
  split
  next language htype =>
    obtain ⟨contentType, -, hlanguage⟩ := Option.bind_eq_some_iff.mp htype
    exact Verdict.code_sound (languageOfType_canonical hlanguage) .codeContentType
  split
  next => exact Verdict.other_sound .richDocument
  split
  next language hurl =>
    obtain ⟨path, -, hlanguage⟩ := Option.bind_eq_some_iff.mp hurl
    exact Verdict.code_sound (Language.ofPath?_canonical hlanguage) .sourceUrl
  split
  next found hfound =>
    split
    next => exact Verdict.code_sound (detect_canonical hfound) .detected
    next => exact Verdict.other_sound .notCode
  next => exact Verdict.other_sound .notCode

/-- A language can be formatted: it goes by its canonical name, which is known, and it is bound to a
registered backend that declares it. -/
structure Formattable {σ : Type} (r : Registry σ) (language : String) : Prop where
  canonical : Language.normalize language = language
  known : Language.isKnown language = true
  bound : ∃ b ∈ r.backends, language ∈ Registry.declared b ∧ r.backend? language = some b

/-- A canonical language can be formatted by the built-in backends. -/
theorem formattable_of_canonical {ω : Type} (host : Host ω) (loader : Plugin.Loader ω)
    (base : String) {language : String} (h : language ∈ Language.canonical) :
    Formattable (.builtin host loader base) language := by
  obtain ⟨hcanonical, hknown⟩ := Language.mem_canonical_iff.mp h
  exact ⟨hcanonical, hknown, Registry.builtin_bound host loader base h⟩

/-- A verdict names a language just if it is that the page is code, and then the built-in backends
can format the language, on every host, with every loader and wherever the files lie. So they can a
language that is detected in a text or a file, and one that is told from a path. -/
theorem detected_formattable {ω : Type} (host : Host ω) (loader : Plugin.Loader ω) (base : String)
    (page : Page) (text : List Char) (name : String) :
    let r : Registry (Workbench ω) := .builtin host loader base
    (classify page).isCode = (classify page).language.isSome ∧
    (∀ language, (classify page).language = some language → Formattable r language) ∧
    (∀ d, detect text = some d → Formattable r d.language) ∧
    (∀ d, detectFile name text = some d → Formattable r d.language) ∧
    ∀ language, Language.ofPath? name = some language → Formattable r language := by
  intro r
  have hcan : ∀ {language}, language ∈ Language.canonical → Formattable r language :=
    formattable_of_canonical host loader base
  have hverdict : (classify page).Sound := classify_sound page
  refine ⟨hverdict.named, ?_, ?_, ?_, ?_⟩
  · exact fun language hl => hcan (hverdict.canonical language hl)
  · exact fun d hd => hcan (detect_canonical hd)
  · exact fun d hd => hcan (detectFile_canonical hd)
  · exact fun language hl => hcan (Language.ofPath?_canonical hl)

end CodeTidy.Detect
