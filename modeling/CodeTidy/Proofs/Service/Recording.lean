import CodeTidy.Service

/-!
# Keeping a record of calls

A backend can be made to keep a record of its calls in the world that it works in, next to the
world it had. Nothing else changes by it. So `calls`, the record of one event from an empty one,
says which backends an event calls, with what, and how each call ends.
-/

namespace CodeTidy

variable {σ : Type}

/-- A call of a backend: who was asked for what, and how the call ended. -/
structure Call (σ : Type) where
  backend : Backend σ
  request : Request
  attempt : Attempt

namespace Backend

/-- The backend with a record of its calls, the latest last. -/
def recorded (b : Backend σ) : Backend (σ × List (Call σ)) where
  profile := b.profile
  isAvailable world := b.isAvailable world.1
  format r world :=
    ((b.format r world.1).1, (b.format r world.1).2, world.2 ++ [⟨b, r, (b.format r world.1).1⟩])

/-- The calls that asking for an answer makes: one, unless the backend is not available. -/
def callsOf (b : Backend σ) (r : Request) (world : σ) : List (Call σ) :=
  if b.isAvailable world then [⟨b, r, (b.format r world).1⟩] else []

/-- A backend with a record gives the answer of the backend and records the call. -/
theorem recorded_answer (b : Backend σ) (r : Request) (world : σ) (record : List (Call σ)) :
    b.recorded.answer r (world, record)
      = ((b.answer r world).1, (b.answer r world).2, record ++ b.callsOf r world) := by
  unfold answer callsOf recorded id
  dsimp only
  cases b.isAvailable world with
  | false => simp
  | true =>
    rcases b.format r world with ⟨attempt, world'⟩
    cases attempt <;> simp

end Backend

namespace Registry

/-- A registry with other backends of the same names binds each language to the other one for its
backend. -/
theorem backend?_map {τ : Type} (r : Registry σ) (f : Backend σ → Backend τ)
    (hf : ∀ b, (f b).id = b.id) (language : String) :
    (⟨r.backends.map f, r.bindings⟩ : Registry τ).backend? language
      = (r.backend? language).map f := by
  have hnamed : ∀ id, (⟨r.backends.map f, r.bindings⟩ : Registry τ).named? id
      = (r.named? id).map f := by
    intro id
    unfold named?
    rw [List.find?_map]
    exact congrArg (fun p => (r.backends.find? p).map f) (funext fun b => by simp [hf])
  unfold backend?
  rw [funext hnamed, Option.map_bind]
  rfl

/-- The registry with a record of the calls of its backends. -/
def recorded (r : Registry σ) : Registry (σ × List (Call σ)) where
  backends := r.backends.map Backend.recorded
  bindings := r.bindings

/-- The backend bound to a language is the same, with a record. -/
theorem recorded_backend? (r : Registry σ) (language : String) :
    r.recorded.backend? language = (r.backend? language).map Backend.recorded :=
  r.backend?_map Backend.recorded (fun _ => rfl) language

end Registry

namespace Service

/-- The service with a record of the calls of its backends. -/
def recorded (s : Service σ) : Service (σ × List (Call σ)) where
  config := s.config
  registry := s.registry.recorded

/-- The state with a record next to its world. -/
def State.withRecord (st : State σ) (record : List (Call σ)) : State (σ × List (Call σ)) where
  limiter := st.limiter
  cache := st.cache
  now := st.now
  world := (st.world, record)

/-- The calls of backends that an event makes: its record from an empty one. -/
def calls (s : Service σ) (e : Event) (st : State σ) : List (Call σ) :=
  (s.recorded.step e (st.withRecord [])).2.world.2

end Service

end CodeTidy
