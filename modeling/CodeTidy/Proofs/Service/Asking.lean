import CodeTidy.Proofs.Service.Failing

/-!
# What the registry is asked

A backend that is not available is not called, so the calls of backends do not show every request
that a service makes of its registry. They do once backends are attended, and find out themselves
whether they are available: then each request to the registry is one call, and `attended_step` says
that nothing else changes. So `asked`, the requests in the calls of the attended service, says what
an event asks of the registry.
-/

namespace CodeTidy

variable {σ : Type}

/-- The attempt that an outcome shows. -/
def Attempt.ofOutcome (o : Outcome) : Attempt :=
  match o.failure with
  | none => .formatted o.code
  | some f => .failed f

namespace Backend

/-- The backend, available at any time, with its answers for attempts. -/
def attended (b : Backend σ) : Backend σ where
  profile := b.profile
  format r world := (.ofOutcome (b.answer r world).1, (b.answer r world).2)

/-- An attended backend gives the answers of the backend. -/
theorem attended_answer (b : Backend σ) : b.attended.answer = b.answer := by
  funext r world
  unfold answer attended
  dsimp only
  rw [if_neg (by simp)]
  rcases hanswer : b.answer r world with ⟨⟨code, _ | f⟩, world'⟩
  · rw [answer] at hanswer
    rw [hanswer]
    rfl
  · obtain ⟨rfl, -⟩ := answer_failed (congrArg Prod.fst hanswer)
    rw [answer] at hanswer
    rw [hanswer]
    rfl

/-- Asking an attended backend is one call of it. -/
theorem attended_callsOf (b : Backend σ) (r : Request) (world : σ) :
    (b.attended.callsOf r world).map Call.request = [r] := rfl

end Backend

namespace Registry

/-- The registry with attended backends. -/
def attended (r : Registry σ) : Registry σ where
  backends := r.backends.map Backend.attended
  bindings := r.bindings

/-- The backend bound to a language is the same, attended. -/
theorem attended_backend? (r : Registry σ) (language : String) :
    r.attended.backend? language = (r.backend? language).map Backend.attended :=
  r.backend?_map Backend.attended (fun _ => rfl) language

/-- The same languages have a backend. -/
theorem attended_isSupported (r : Registry σ) : r.attended.isSupported = r.isSupported := by
  funext language
  unfold isSupported
  rw [attended_backend?, Option.isSome_map]

/-- The registry gives the same outcomes. -/
theorem attended_format (r : Registry σ) : r.attended.format = r.format := by
  funext code language settings world
  unfold format
  dsimp only
  rw [attended_backend?]
  cases r.backend? (Language.normalize language) with
  | none => rfl
  | some b =>
    show b.attended.answer _ world = b.answer _ world
    rw [b.attended_answer]

end Registry

namespace Service

/-- The service with attended backends. -/
def attended (s : Service σ) : Service σ where
  config := s.config
  registry := s.registry.attended

/-- Submissions are handled alike. -/
theorem attended_admitted (s : Service σ) : s.attended.admitted = s.admitted := by
  funext code language user st
  unfold admitted lookUpOrCall attended
  dsimp only
  rw [Registry.attended_isSupported, Registry.attended_format]

/-- Events do the same to an attended service. -/
theorem attended_step (s : Service σ) : s.attended.step = s.step := by
  funext e st
  unfold step formatBag format
  rw [attended_admitted]

/-- The requests that an event makes of the registry: those of the calls that its attended backends
make. -/
def asked (s : Service σ) (e : Event) (st : State σ) : List Request :=
  (s.attended.calls e st).map Call.request

end Service

end CodeTidy
