import CodeTidy.Proofs.Language.Normalize
import CodeTidy.Proofs.Registry.Bindings

/-!
# Registering backends

A registration does two things to a registry: the backend takes the place of the one of its name,
and the bindings change. `named?_enroll` and the two look-ups `lookup_register` and
`lookup_registerFallback` say all of it. From these follows what holds behind any history of
registrations: a binding always leads to a registered backend that declares the language.
-/

namespace CodeTidy

variable {σ : Type}

/-- A registration of a backend: for all languages that it declares, or for the free ones. -/
inductive Registration (σ : Type) where
  | full (b : Backend σ)
  | fallback (b : Backend σ)

/-- The backend that is registered. -/
def Registration.backend : Registration σ → Backend σ
  | .full b => b
  | .fallback b => b

namespace Registry

/-- The registry behind a registration. -/
def enroll (r : Registry σ) : Registration σ → Registry σ
  | .full b => r.register b
  | .fallback b => r.registerFallback b

/-- The registry behind a history of registrations. It starts out empty. -/
def ofHistory (xs : List (Registration σ)) : Registry σ := xs.foldl enroll {}

/-- Behind one more registration. -/
theorem ofHistory_concat (xs : List (Registration σ)) (x : Registration σ) :
    ofHistory (xs ++ [x]) = (ofHistory xs).enroll x := by
  unfold ofHistory
  rw [List.foldl_append, List.foldl_cons, List.foldl_nil]

/-! ## What a registration changes -/

/-- The backend registered takes the place of the one of its name. -/
theorem enroll_backends (r : Registry σ) (x : Registration σ) :
    (r.enroll x).backends = r.backends.filter (·.id != x.backend.id) ++ [x.backend] := by
  cases x <;> rfl

/-- The backend registered goes by its name, and the other names go to whom they went. -/
theorem named?_enroll (r : Registry σ) (x : Registration σ) (id : String) :
    (r.enroll x).named? id = if id = x.backend.id then some x.backend else r.named? id := by
  unfold named?
  rw [enroll_backends, List.find?_append, List.find?_filter]
  split_ifs with h
  · subst h
    rw [List.find?_eq_none.mpr (by simp), Option.none_or, List.find?_singleton,
      beq_self_eq_true, if_pos rfl]
  · have hothers : ∀ b : Backend σ,
        decide ((b.id != x.backend.id) = true ∧ (b.id == id) = true) = (b.id == id) := by
      intro b
      by_cases hb : b.id = id
      · simp [hb, h]
      · simp [hb]
    rw [funext hothers, List.find?_singleton, beq_eq_false_iff_ne.mpr (Ne.symm h),
      if_neg Bool.false_ne_true, Option.or_none]

/-- A backend that a name goes to is registered under that name. -/
theorem mem_of_named? {r : Registry σ} {id : String} {b : Backend σ} (h : r.named? id = some b) :
    b ∈ r.backends ∧ b.id = id :=
  ⟨List.mem_of_find?_eq_some h, by simpa using List.find?_some h⟩

section

variable {r : Registry σ}

/-- Registering a backend binds the languages that it declares and frees those that only the
backend replaced was bound to. -/
theorem lookup_register (h : Ascending r.bindings) (b : Backend σ) (l : String) :
    (r.register b).bindings.lookup l =
      if l ∈ declared b then some b.id else (r.bindings.lookup l).filter (· != b.id) := by
  unfold register remove
  dsimp only
  rw [lookup_foldl_bind, h.distinct.lookup_filter (· != b.id)]

/-- Registering a fallback frees the languages that the backend replaced was bound to, and binds
those that it declares and that are free then. -/
theorem lookup_registerFallback (h : Ascending r.bindings) (b : Backend σ) (l : String) :
    (r.registerFallback b).bindings.lookup l =
      ((r.bindings.lookup l).filter (· != b.id)).or
        (if l ∈ declared b then some b.id else none) := by
  unfold registerFallback remove
  dsimp only
  rw [lookup_foldl_bindIfFree, h.distinct.lookup_filter (· != b.id)]

/-- A registration keeps the bindings ascending. -/
theorem ascending_enroll (h : Ascending r.bindings) (x : Registration σ) :
    Ascending (r.enroll x).bindings := by
  have hremoved : Ascending (r.remove x.backend.id).bindings := h.filter _
  cases x with
  | full b => exact hremoved.foldl_bind (declared b) b.id
  | fallback b => exact hremoved.foldl_bindIfFree (declared b) b.id

/-- A binding behind a registration goes to the backend registered, which declares the language, or
it was there and goes to another. -/
theorem lookup_enroll_cases (h : Ascending r.bindings) {x : Registration σ} {l id : String}
    (hl : (r.enroll x).bindings.lookup l = some id) :
    id = x.backend.id ∧ l ∈ declared x.backend ∨
      id ≠ x.backend.id ∧ r.bindings.lookup l = some id := by
  have hold : (r.bindings.lookup l).filter (· != x.backend.id) = some id →
      id ≠ x.backend.id ∧ r.bindings.lookup l = some id := by
    intro hfilter
    obtain ⟨hlookup, hne⟩ := Option.filter_eq_some_iff.mp hfilter
    exact ⟨by simpa using hne, hlookup⟩
  cases x with
  | full b =>
    unfold enroll at hl
    dsimp only at hl
    rw [lookup_register h] at hl
    split_ifs at hl with hdeclared
    · exact .inl ⟨(Option.some.inj hl).symm, hdeclared⟩
    · exact .inr (hold hl)
  | fallback b =>
    unfold enroll at hl
    dsimp only at hl
    rw [lookup_registerFallback h] at hl
    rcases Option.or_eq_some_iff.mp hl with hfilter | ⟨-, hnew⟩
    · exact .inr (hold hfilter)
    · split_ifs at hnew with hdeclared
      exact .inl ⟨(Option.some.inj hnew).symm, hdeclared⟩

end

/-! ## What always holds -/

/-- The bindings are ascending, and each goes to a registered backend that declares the language.
No two backends have one name. -/
structure Sound (r : Registry σ) : Prop where
  ascending : Ascending r.bindings
  bound : ∀ l id, r.bindings.lookup l = some id → ∃ b, r.named? id = some b ∧ l ∈ declared b
  names : (r.backends.map Backend.id).Nodup

/-- A registration keeps a registry sound. -/
theorem Sound.enroll {r : Registry σ} (h : r.Sound) (x : Registration σ) : (r.enroll x).Sound := by
  refine ⟨ascending_enroll h.ascending x, ?_, ?_⟩
  · -- No binding goes to the backend that was replaced, as they went with it.
    intro l id hl
    rw [named?_enroll]
    rcases lookup_enroll_cases h.ascending hl with ⟨rfl, hdeclared⟩ | ⟨hne, hold⟩
    · exact ⟨x.backend, if_pos rfl, hdeclared⟩
    · rw [if_neg hne]
      exact h.bound l id hold
  · rw [enroll_backends, List.map_append, List.map_singleton]
    refine (h.names.sublist (List.filter_sublist.map Backend.id)).append
      (List.nodup_singleton _) ?_
    intro id hid hnew
    obtain ⟨b, hb, rfl⟩ := List.mem_map.mp hid
    rw [List.mem_singleton] at hnew
    simpa [hnew] using (List.mem_filter.mp hb).2

/-- Behind any history the registry is sound. -/
theorem ofHistory_sound (xs : List (Registration σ)) : (ofHistory xs).Sound := by
  induction xs using List.reverseRecOn with
  | nil => exact ⟨.nil, nofun, .nil⟩
  | append_singleton xs x ih =>
    rw [ofHistory_concat]
    exact ih.enroll x

/-- A declared language is a canonical name. -/
theorem normalize_declared {b : Backend σ} {l : String} (h : l ∈ declared b) :
    Language.normalize l = l := by
  obtain ⟨name, -, rfl⟩ := List.mem_map.mp h
  exact Language.normalize_normalize name

/-- In a sound registry a bound language has a backend, which is registered and declares it. -/
theorem Sound.exists_backend? {r : Registry σ} (h : r.Sound) {l id : String}
    (hl : r.bindings.lookup l = some id) :
    ∃ b ∈ r.backends, b.id = id ∧ l ∈ declared b ∧ r.backend? l = some b := by
  obtain ⟨b, hb, hdeclared⟩ := h.bound l id hl
  obtain ⟨hmem, hid⟩ := mem_of_named? hb
  refine ⟨b, hmem, hid, hdeclared, ?_⟩
  unfold backend?
  rw [normalize_declared hdeclared, hl]
  exact hb

/-- In a sound registry the languages listed are the canonical names that are supported. -/
theorem Sound.mem_languages_iff {r : Registry σ} (h : r.Sound) (l : String) :
    l ∈ r.languages ↔ Language.normalize l = l ∧ r.isSupported l = true := by
  unfold languages isSupported
  refine ⟨?_, ?_⟩
  · intro hmem
    obtain ⟨entry, hentry, rfl⟩ := List.mem_map.mp hmem
    have hl := h.ascending.distinct.lookup_of_mem hentry
    obtain ⟨b, -, -, hdeclared, hb⟩ := h.exists_backend? hl
    rw [hb]
    exact ⟨normalize_declared hdeclared, rfl⟩
  · rintro ⟨hl, hsupported⟩
    obtain ⟨b, hb⟩ := Option.isSome_iff_exists.mp hsupported
    unfold backend? at hb
    obtain ⟨id, hid, -⟩ := Option.bind_eq_some_iff.mp hb
    rw [hl] at hid
    exact List.mem_map.mpr ⟨(l, id), Table.mem_of_lookup hid, rfl⟩

/-- Registering a backend gives it the languages that it declares, and takes the others from the
backend that it replaces. -/
theorem backend?_register {r : Registry σ} (h : Ascending r.bindings) (b : Backend σ)
    (name : String) :
    (r.register b).backend? name =
      if Language.normalize name ∈ declared b then some b
      else (r.backend? name).filter (·.id != b.id) := by
  have hnamed : ∀ id, (r.register b).named? id = if id = b.id then some b else r.named? id :=
    named?_enroll r (.full b)
  unfold backend?
  rw [lookup_register h]
  split_ifs with hdeclared
  · rw [Option.bind_some, hnamed, if_pos rfl]
  · cases hl : r.bindings.lookup (Language.normalize name) with
    | none => rfl
    | some id =>
      rw [Option.bind_some, Option.filter_some]
      -- A name goes to a backend of that name only.
      have hid : ∀ c ∈ r.named? id, c.id = id := fun c hc => (mem_of_named? hc).2
      by_cases hsame : id = b.id
      · rw [if_neg (by simp [hsame]), Option.bind_none, eq_comm, Option.filter_eq_none_iff]
        intro c hc
        simp [hid c hc, hsame]
      · rw [if_pos (by simp [hsame]), Option.bind_some, hnamed, if_neg hsame]
        cases hc : r.named? id with
        | none => rfl
        | some c => rw [Option.filter_some, if_pos (by simp [hid c hc, hsame])]

/-- A fallback takes no language from another backend. -/
theorem backend?_registerFallback {r : Registry σ} (h : Ascending r.bindings) {b c : Backend σ}
    {name : String} (hc : r.backend? name = some c) (hne : c.id ≠ b.id) :
    (r.registerFallback b).backend? name = some c := by
  have hnamed : ∀ id, (r.registerFallback b).named? id =
      if id = b.id then some b else r.named? id := named?_enroll r (.fallback b)
  unfold backend? at *
  obtain ⟨id, hid, hcid⟩ := Option.bind_eq_some_iff.mp hc
  obtain rfl := (mem_of_named? hcid).2
  rw [lookup_registerFallback h, hid, Option.filter_some, if_pos (by simpa using hne),
    Option.some_or, Option.bind_some, hnamed, if_neg hne]
  exact hcid

/-- Behind any history of registrations, every binding has a canonical name and goes to a
registered backend that declares the language; the languages listed are the canonical names that
are supported, in ascending order. Registering a backend gives it all the languages that it
declares and changes no other binding, except that those of the backend it replaces go. Registering
a fallback changes no binding of another backend. -/
theorem bindings_sound (xs : List (Registration σ)) :
    let r := ofHistory xs
    (∀ entry ∈ r.bindings, Language.normalize entry.1 = entry.1 ∧
      ∃ b ∈ r.backends, b.id = entry.2 ∧ entry.1 ∈ declared b ∧ r.backend? entry.1 = some b) ∧
    (r.backends.map Backend.id).Nodup ∧
    (∀ l, l ∈ r.languages ↔ Language.normalize l = l ∧ r.isSupported l = true) ∧
    r.languages.Pairwise (· < ·) ∧
    ∀ b : Backend σ,
      (∀ l, (r.register b).bindings.lookup l =
        if l ∈ declared b then some b.id else (r.bindings.lookup l).filter (· != b.id)) ∧
      (∀ name, (r.register b).backend? name =
        if Language.normalize name ∈ declared b then some b
        else (r.backend? name).filter (·.id != b.id)) ∧
      (∀ l id, r.bindings.lookup l = some id → id ≠ b.id →
        (r.registerFallback b).bindings.lookup l = some id) ∧
      (∀ name c, r.backend? name = some c → c.id ≠ b.id →
        (r.registerFallback b).backend? name = some c) := by
  intro r
  have hr : r.Sound := ofHistory_sound xs
  refine ⟨?_, hr.names, hr.mem_languages_iff, List.pairwise_map.mpr hr.ascending, ?_⟩
  · intro entry hentry
    have hl := hr.ascending.distinct.lookup_of_mem hentry
    obtain ⟨b, hmem, hid, hdeclared, hb⟩ := hr.exists_backend? hl
    exact ⟨normalize_declared hdeclared, b, hmem, hid, hdeclared, hb⟩
  · intro b
    refine ⟨lookup_register hr.ascending b, backend?_register hr.ascending b, ?_, ?_⟩
    · intro l id hl hne
      rw [lookup_registerFallback hr.ascending, hl, Option.filter_some,
        if_pos (by simpa using hne), Option.some_or]
    · intro name c hc hne
      exact backend?_registerFallback hr.ascending hc hne

end Registry

end CodeTidy
