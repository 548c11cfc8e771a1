import CodeTidy.Cache.Basic
import CodeTidy.Cache.Key
import CodeTidy.Registry
import CodeTidy.Settings.Resolve

/-!
# The service

Every request goes through the same stages: the quota of its caller, the size of the code, the
language, the settings, the cache, and on a miss the backend bound to the language. A result is
cached if it is a success. Each request is charged to its caller once and before all else,
whatever becomes of it.
-/

namespace CodeTidy

/-- The policy of a service. -/
structure Service.Config where
  maxInputBytes : Nat := 1048576
  cacheCapacity : Nat := Cache.usualCapacity
  quota : Quota := {}
deriving DecidableEq

/-- A service: its policy and its backends. -/
structure Service (σ : Type) where
  config : Service.Config := {}
  registry : Registry σ

namespace Service

/-- The caller on whose behalf anonymous requests are made. -/
def anonymous : String := "anonymous"

/-- The state of a service in a world of type `σ`. -/
structure State (σ : Type) where
  limiter : Limiter
  cache : Cache Blake3.Digest
  /-- The time in milliseconds. -/
  now : Nat := 0
  world : σ

variable {σ : Type}

/-- The state of a service before the first request. -/
def start (s : Service σ) (world : σ) : State σ where
  limiter := { quota := s.config.quota }
  cache := { capacity := s.config.cacheCapacity }
  world

/-- Charges a request to its caller. -/
def State.charge (caller : String) (st : State σ) : Bool × State σ :=
  let (admitted, limiter) := st.limiter.check st.now caller
  (admitted, { st with limiter })

/-- The stages behind the settings: the cache, and the backend on a miss. -/
def lookUpOrCall (s : Service σ) (code language : String) (settings : Settings) (st : State σ) :
    Outcome × State σ :=
  let key := Cache.key language settings code
  match st.cache.get key with
  | (some text, cache) => (⟨text, none⟩, { st with cache })
  | (none, cache) =>
    let (outcome, world) := s.registry.format code language settings st.world
    let cache := if outcome.isSuccess then cache.insert key outcome.code else cache
    (outcome, { st with cache, world })

/-- The stages behind the quota. -/
def admitted (s : Service σ) (code language : String) (user : Overrides) (st : State σ) :
    Outcome × State σ :=
  let bytes := code.utf8ByteSize
  if s.config.maxInputBytes < bytes then
    (.failed code (.oversized bytes s.config.maxInputBytes), st)
  else
    let language := Language.normalize language
    if !s.registry.isSupported language then (.failed code (.unsupported language), st)
    else s.lookUpOrCall code language (Settings.resolve user language) st

/-- Formats code for a caller. -/
def format (s : Service σ) (caller code language : String) (user : Overrides) (st : State σ) :
    Outcome × State σ :=
  match st.charge caller with
  | (false, st) => (.failed code (.rateLimited st.limiter.quota), st)
  | (true, st) => s.admitted code language user st

/-- Formats code for a caller who gives the settings as a bag. A malformed bag is charged to the
caller too. -/
def formatBag (s : Service σ) (caller code language : String) (bag : Json) (st : State σ) :
    Outcome × State σ :=
  match Overrides.ofJson bag with
  | .ok user => s.format caller code language user st
  | .error e =>
    match st.charge caller with
    | (false, st) => (.failed code (.rateLimited st.limiter.quota), st)
    | (true, st) => (.failed code (.settings e), st)

/-- Lets time pass. -/
def State.advance (ms : Nat) (st : State σ) : State σ := { st with now := st.now + ms }

/-- Drops every cached result. -/
def State.clearCache (st : State σ) : State σ := { st with cache := st.cache.clear }

/-- What happens to a service. -/
inductive Event where
  | format (caller code language : String) (user : Overrides)
  | formatBag (caller code language : String) (bag : Json)
  | advance (ms : Nat)
  | clearCache

/-- The outcome of an event, if it is a request, and the state behind it. -/
def step (s : Service σ) (e : Event) (st : State σ) : Option Outcome × State σ :=
  match e with
  | .format caller code language user =>
    let (outcome, st) := s.format caller code language user st
    (some outcome, st)
  | .formatBag caller code language bag =>
    let (outcome, st) := s.formatBag caller code language bag st
    (some outcome, st)
  | .advance ms => (none, st.advance ms)
  | .clearCache => (none, st.clearCache)

/-- The outcomes of the requests of a run, in their order, and the state behind the run. -/
def run (s : Service σ) : List Event → State σ → List Outcome × State σ
  | [], st => ([], st)
  | e :: es, st =>
    let (outcome, st) := s.step e st
    let (outcomes, st) := s.run es st
    (outcome.toList ++ outcomes, st)

end Service

end CodeTidy
