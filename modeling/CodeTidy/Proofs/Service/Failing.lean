import CodeTidy.Proofs.Service.Handling

/-!
# What a failure leaves behind

A failed request gives its caller the code back and leaves the entries of the cache as they are,
whichever stage it fails at and whatever the backend does. A request that is refused before the
cache, for its quota, its settings, its size or its language, does not touch the cache at all and
calls no backend. The kinds of these four refusals come from nowhere else, except from a backend
that was called and gave such a failure as its own answer.
-/

namespace CodeTidy

variable {σ : Type}

/-- The kinds of the failures of the stages before the cache. -/
def Failure.Kind.IsEarly (k : Failure.Kind) : Prop :=
  k = .rateLimited ∨ k = .oversizedInput ∨ k = .unsupportedLanguage ∨ k = .invalidInput

/-- A backend that fails gives the code back. A failure of an early kind is its own answer. -/
theorem Backend.answer_failed {b : Backend σ} {q : Request} {world : σ} {code : String}
    {f : Failure} (h : (b.answer q world).1 = ⟨code, some f⟩) :
    code = q.code ∧ (f.kind.IsEarly → ∃ c ∈ b.callsOf q world, c.attempt = .failed f) := by
  unfold answer Outcome.failed at h
  unfold callsOf
  cases havailable : b.isAvailable world with
  | false =>
    simp only [havailable, Bool.not_false, if_true, Outcome.mk.injEq, Option.some.injEq] at h
    obtain ⟨rfl, rfl⟩ := h
    refine ⟨rfl, ?_⟩
    intro hearly
    simp [Failure.Kind.IsEarly, Failure.kind] at hearly
  | true =>
    rcases hformat : b.format q world with ⟨attempt, world'⟩
    simp only [havailable, Bool.not_true, Bool.false_eq_true, if_false, hformat] at h
    simp only [if_true, List.mem_singleton, exists_eq_left]
    cases attempt with
    | formatted text => simp at h
    | failed f' =>
      simp only [Outcome.mk.injEq, Option.some.injEq] at h
      obtain ⟨rfl, rfl⟩ := h
      exact ⟨rfl, fun _ => rfl⟩
    | crashed detail =>
      simp only [Outcome.mk.injEq, Option.some.injEq] at h
      obtain ⟨rfl, rfl⟩ := h
      refine ⟨rfl, ?_⟩
      intro hearly
      simp [Failure.Kind.IsEarly, Failure.kind] at hearly

namespace Service

/-- A submission is refused before the cache is looked at. -/
def Refuses (s : Service σ) (st : State σ) (x : Submission) : Prop :=
  (st.charge x.caller).1 = false ∨ (∃ e, x.user = .error e) ∨
    s.config.maxInputBytes < x.code.utf8ByteSize ∨ s.registry.backend? x.canonical = none

/-- A submission that is refused leaves the cache as it is and calls nobody. -/
theorem Handling.refused {s : Service σ} {st st' : State σ} {x : Submission} {o : Outcome}
    {calls : List (Call σ)} (h : Handling s st x o st' calls) (hrefuses : s.Refuses st x) :
    st'.cache = st.cache ∧ calls = [] := by
  cases h with
  | limited | malformed | oversized | unsupported => exact ⟨rfl, rfl⟩
  | hit hq hu hb hr | asked hq hu hb hr =>
    rcases hrefuses with hlimited | ⟨e, he⟩ | hlong | hnone
    · simp [hq] at hlimited
    · simp [hu] at he
    · omega
    · simp [hr] at hnone

/-- A failed submission gives the code back, keeps the entries of the cache and has written and
evicted nothing. -/
theorem Handling.failed {s : Service σ} {st st' : State σ} {x : Submission} {code : String}
    {f : Failure} {calls : List (Call σ)} (h : Handling s st x ⟨code, some f⟩ st' calls) :
    code = x.code ∧ st'.cache.entries = st.cache.entries ∧
      st'.cache.stats.writes = st.cache.stats.writes ∧
      st'.cache.stats.evictions = st.cache.stats.evictions ∧
      (f.kind.IsEarly → s.Refuses st x ∨ ∃ c ∈ calls, c.attempt = .failed f) := by
  generalize ho : (⟨code, some f⟩ : Outcome) = o at h
  cases h with
  | limited hq =>
    obtain ⟨rfl, -⟩ := Outcome.mk.inj ho
    exact ⟨rfl, rfl, rfl, rfl, fun _ => .inl (.inl hq)⟩
  | malformed hq hu =>
    obtain ⟨rfl, -⟩ := Outcome.mk.inj ho
    exact ⟨rfl, rfl, rfl, rfl, fun _ => .inl (.inr (.inl ⟨_, hu⟩))⟩
  | oversized hq hu hb =>
    obtain ⟨rfl, -⟩ := Outcome.mk.inj ho
    exact ⟨rfl, rfl, rfl, rfl, fun _ => .inl (.inr (.inr (.inl hb)))⟩
  | unsupported hq hu hb hr =>
    obtain ⟨rfl, -⟩ := Outcome.mk.inj ho
    exact ⟨rfl, rfl, rfl, rfl, fun _ => .inl (.inr (.inr (.inr hr)))⟩
  | hit => simp at ho
  | @asked user b hq hu hb hr hc =>
    obtain ⟨hcode, hearly⟩ := Backend.answer_failed ho.symm
    -- The outcome is no success, so only the look-up has changed the cache.
    have hcache : ((st.charge x.caller).2.answered (x.request user).key
        (b.answer (x.request user) st.world).1 (b.answer (x.request user) st.world).2).cache
          = (st.cache.get (x.request user).key).2 := by
      unfold State.answered
      rw [← ho]
      rfl
    rw [hcache]
    exact ⟨hcode, Cache.get_entries _ _, Cache.get_writes _ _, Cache.get_evictions _ _,
      fun hkind => .inr (hearly hkind)⟩

/-- If a submission fails because its language is not supported, there is no backend for the
language, or the backend said so. -/
theorem Handling.of_unsupported {s : Service σ} {st st' : State σ} {x : Submission}
    {user : Overrides} {code : String} {f : Failure} {calls : List (Call σ)}
    (h : Handling s st x ⟨code, some f⟩ st' calls) (hx : x.user = .ok user)
    (hkind : f.kind = .unsupportedLanguage) :
    s.registry.backend? x.canonical = none ∨ ∃ b, s.registry.backend? x.canonical = some b ∧
      (b.answer (x.request user) st.world).1.failure = some f := by
  generalize ho : (⟨code, some f⟩ : Outcome) = o at h
  cases h with
  | limited | oversized =>
    obtain ⟨-, hf⟩ := Outcome.mk.inj ho
    obtain rfl := Option.some.inj hf
    cases hkind
  | malformed hq hu =>
    rw [hx] at hu
    cases hu
  | unsupported hq hu hb hr => exact .inl hr
  | hit => cases ho
  | asked hq hu hb hr hc =>
    rw [hx] at hu
    cases hu
    exact .inr ⟨_, hr, (congrArg Outcome.failure ho).symm⟩

/-- A failure never loses the code of the request and never disturbs the cache, in any state of any
service: the code comes back, the cache holds the same entries in the same order, and nothing was
written or evicted. A request that is refused for its quota, its size, its language or its settings
moves no counter and calls no backend, and a failure of one of these kinds is such a refusal,
unless a backend was called and itself gave just that failure. -/
theorem failure_keeps (s : Service σ) (st st' : State σ) (e : Event) (code : String) (f : Failure)
    (h : s.step e st = (some ⟨code, some f⟩, st')) :
    ∃ x, e.submission? = some x ∧ code = x.code ∧ st'.cache.entries = st.cache.entries ∧
      st'.cache.stats.writes = st.cache.stats.writes ∧
      st'.cache.stats.evictions = st.cache.stats.evictions ∧
      (s.Refuses st x → st'.cache = st.cache ∧ s.calls e st = []) ∧
      (f.kind.IsEarly → s.Refuses st x ∨ ∃ c ∈ s.calls e st, c.attempt = .failed f) := by
  cases hx : e.submission? with
  | none => cases e <;> simp [Event.submission?, step] at hx h
  | some x =>
    obtain ⟨o, st'', calls, hstep, hcalls, hhandling⟩ := s.step_handling hx st
    obtain ⟨ho, rfl⟩ := Prod.mk.inj (hstep.symm.trans h)
    obtain rfl := Option.some.inj ho
    obtain ⟨hcode, hentries, hwrites, hevictions, hearly⟩ := hhandling.failed
    rw [hcalls]
    exact ⟨x, rfl, hcode, hentries, hwrites, hevictions, hhandling.refused, hearly⟩

/-- A backend that always breaks down. -/
def crasher : Backend Unit where
  profile := { id := "crash", name := "Crasher", languages := ["js"] }
  format _ world := (.crashed none, world)

/-- A service with no other backend than one that breaks down. -/
def crashing : Service Unit where
  registry := { backends := [crasher], bindings := [("javascript", "crash")] }

/-- A request for a backend that breaks down gets its code back. -/
theorem failure_keeps_crashing :
    ∃ st' x, crashing.step (.format "ann" "x" "js" {}) (crashing.start ())
        = (some ⟨"x", some (.crashed "crash" none)⟩, st') ∧
      Event.submission? (.format "ann" "x" "js" {}) = some x ∧ "x" = x.code ∧
      st'.cache.entries = [] := by
  have hjs : Language.normalize "js" = "javascript" := by decide +kernel
  have hscript : Language.normalize "javascript" = "javascript" := by decide +kernel
  have hr : crashing.registry.backend? (Submission.canonical ⟨"ann", "x", "js", .ok {}⟩)
      = some crasher := by
    simp [Submission.canonical, Registry.backend?, hjs, hscript, crashing, Registry.named?, crasher,
      Backend.id]
  have houtcome : (crashing.step (.format "ann" "x" "js" {}) (crashing.start ())).1
      = some ⟨"x", some (.crashed "crash" none)⟩ := by
    have hu : (Submission.mk "ann" "x" "js" (.ok {})).user = .ok {} := rfl
    rw [step_eq_serve crashing (x := ⟨"ann", "x", "js", .ok {}⟩) rfl,
      serve_asked (by decide) hu (by decide) hr rfl]
    rfl
  rcases hstep : crashing.step (.format "ann" "x" "js" {}) (crashing.start ()) with ⟨o, st'⟩
  rw [hstep] at houtcome
  obtain rfl := houtcome
  obtain ⟨x, hx, hcode, hentries, -⟩ := failure_keeps crashing _ _ _ _ _ hstep
  exact ⟨st', x, rfl, hx, hcode, hentries⟩

end Service

end CodeTidy
