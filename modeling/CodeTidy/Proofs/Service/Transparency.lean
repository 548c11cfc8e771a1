import CodeTidy.Proofs.Cache.Key
import CodeTidy.Proofs.Cache.Residency
import CodeTidy.Proofs.Service.Handling
import CodeTidy.Proofs.Table

/-!
# The cache is transparent

A trace lists the events of a run with their outcomes and the calls of backends that they made. The
invariant is `Sourced`: every entry of the cache is the answer that the backend bound to the
language of some request gave to a call with just that request, since the cache was last cleared,
and the entry is kept under the key of that request. The bytes that stand for requests are different
for different requests, so if their digests do not collide a hit serves no other request, and a
success is always such an answer.

For backends that are functions of the request the entries are what the backends would answer now,
and then the capacity of the cache does not show in the outcomes.
-/

namespace CodeTidy

variable {σ : Type}

/-- The bytes that stand for a request. -/
def Request.encoding (q : Request) : List UInt8 := Cache.encode q.language q.settings q.code

/-- BLAKE3 does not collide on the bytes that stand for the requests: no two of these sequences of
bytes have one digest. -/
def CollisionFree (requests : List Request) : Prop :=
  ∀ bytes ∈ requests.map Request.encoding, ∀ bytes' ∈ requests.map Request.encoding,
    Blake3.digest ⟨bytes.toArray⟩ = Blake3.digest ⟨bytes'.toArray⟩ → bytes = bytes'

namespace Registry

/-- The languages with a binding have names whose length a machine word holds. -/
def NamesFit (r : Registry σ) : Prop := ∀ l ∈ r.languages, l.utf8ByteSize < 2 ^ 64

/-- Every backend is a function of the request, whatever the world. -/
def Stateless (r : Registry σ) : Prop :=
  ∀ b ∈ r.backends, ∀ q : Request, ∃ o, ∀ world, (b.answer q world).1 = o

/-- A language with a backend has a binding under its canonical name. -/
theorem mem_languages_of_backend? {r : Registry σ} {language : String} {b : Backend σ}
    (h : r.backend? language = some b) : Language.normalize language ∈ r.languages := by
  unfold backend? at h
  obtain ⟨id, hid, -⟩ := Option.bind_eq_some_iff.mp h
  obtain ⟨l₁, l₂, heq, -⟩ := List.lookup_eq_some_iff.mp hid
  unfold languages
  rw [heq]
  simp

/-- The backend of a language is registered. -/
theorem mem_backends_of_backend? {r : Registry σ} {language : String} {b : Backend σ}
    (h : r.backend? language = some b) : b ∈ r.backends := by
  unfold backend? at h
  obtain ⟨id, -, hb⟩ := Option.bind_eq_some_iff.mp h
  exact List.mem_of_find?_eq_some hb

end Registry

/-- Requests for bound languages that have one key are one request. -/
theorem CollisionFree.eq_of_key {requests : List Request} (hfree : CollisionFree requests)
    {r : Registry σ} (hnames : r.NamesFit) {q q' : Request} (hq : q ∈ requests)
    (hq' : q' ∈ requests) (hl : q.language ∈ r.languages) (hl' : q'.language ∈ r.languages)
    (hkey : q.key = q'.key) : q = q' := by
  obtain ⟨hlanguage, hsettings, hcode⟩ :=
    Cache.encode_inj (hnames _ hl) (hnames _ hl')
      (hfree _ (List.mem_map_of_mem hq) _ (List.mem_map_of_mem hq') hkey)
  obtain ⟨code, language, settings⟩ := q
  obtain rfl := hlanguage
  obtain rfl := hsettings
  obtain rfl := hcode
  rfl

namespace Service

/-- An event of a run, with its outcome, if it is a request, and the calls that it made. -/
structure Happening (σ : Type) where
  event : Event
  outcome : Option Outcome
  calls : List (Call σ)

/-- The backend bound to the language of a request answered it with this text during the event. -/
def Happening.Answers (h : Happening σ) (s : Service σ) (q : Request) (text : String) : Prop :=
  ∃ b, s.registry.backend? q.language = some b ∧ ⟨b, q, .formatted text⟩ ∈ h.calls

/-- What an event does from a state. -/
def happening (s : Service σ) (e : Event) (st : State σ) : Happening σ :=
  ⟨e, (s.step e st).1, s.calls e st⟩

/-- The events of a run with what they did. -/
def trace (s : Service σ) : List Event → State σ → List (Happening σ)
  | [], _ => []
  | e :: es, st => s.happening e st :: s.trace es (s.step e st).2

/-- The outcome of the first event comes first. -/
theorem run_cons (s : Service σ) (e : Event) (es : List Event) (st : State σ) :
    (s.run (e :: es) st).1 = (s.step e st).1.toList ++ (s.run es (s.step e st).2).1 := rfl

/-- What the first event did comes first. -/
theorem trace_cons (s : Service σ) (e : Event) (es : List Event) (st : State σ) :
    s.trace (e :: es) st = s.happening e st :: s.trace es (s.step e st).2 := rfl

/-- The outcomes in the trace of a run are the outcomes of the run. -/
theorem trace_outcomes (s : Service σ) :
    ∀ (es : List Event) (st : State σ),
      (s.trace es st).filterMap Happening.outcome = (s.run es st).1
  | [], _ => rfl
  | e :: es, st => by
    have ih := s.trace_outcomes es (s.step e st).2
    rw [run_cons, trace, List.filterMap_cons, ← ih]
    cases h : (s.step e st).1 <;> simp [happening, h]

/-- The service with a cache of another capacity. -/
def withCapacity (s : Service σ) (capacity : ℕ) : Service σ where
  config := { s.config with cacheCapacity := capacity }
  registry := s.registry

/-! ## Where entries come from -/

section sources

variable {s : Service σ} {requests : List Request} {past : List (Happening σ)}

/-- A text is an answer to a request that was given since the cache was last cleared. -/
def Given (s : Service σ) (past : List (Happening σ)) (q : Request) (text : String) : Prop :=
  ∃ older h newer, past = older ++ h :: newer ∧ (∀ n ∈ newer, n.event ≠ .clearCache) ∧
    h.Answers s q text

/-- Every entry of the cache is an answer given since the cache was last cleared, and is kept under
the key of the request that it answers. -/
def Sourced (s : Service σ) (requests : List Request) (past : List (Happening σ))
    (c : Cache Blake3.Digest) : Prop :=
  c.Holds fun key text => ∃ q ∈ requests, q.key = key ∧ q.language ∈ s.registry.languages ∧
    Given s past q text

/-- An answer stays given while the cache is not cleared. -/
theorem Given.snoc {q : Request} {text : String} (hgiven : Given s past q text)
    {h : Happening σ} (hclear : h.event ≠ .clearCache) : Given s (past ++ [h]) q text := by
  obtain ⟨older, h', newer, rfl, hnewer, hanswers⟩ := hgiven
  refine ⟨older, h', newer ++ [h], by simp, ?_, hanswers⟩
  intro n hn
  rcases List.mem_append.mp hn with hn | hn
  · exact hnewer n hn
  · rw [List.mem_singleton.mp hn]
    exact hclear

/-- An answer is given behind the event that gave it. -/
theorem given_last {h : Happening σ} {q : Request} {text : String} (hanswers : h.Answers s q text) :
    Given s (past ++ [h]) q text :=
  ⟨past, h, [], rfl, by simp, hanswers⟩

/-- Entries keep their source while the cache is not cleared. -/
theorem Sourced.snoc {c : Cache Blake3.Digest} (hc : Sourced s requests past c)
    {h : Happening σ} (hclear : h.event ≠ .clearCache) : Sourced s requests (past ++ [h]) c := by
  intro p hp
  obtain ⟨q, hq, hkey, hl, hgiven⟩ := hc p hp
  exact ⟨q, hq, hkey, hl, hgiven.snoc hclear⟩

/-- A backend that answers with a success was called, with just this request. -/
theorem mem_callsOf_of_answer {b : Backend σ} {q : Request} {world : σ} {text : String}
    (h : (b.answer q world).1 = ⟨text, none⟩) :
    ⟨b, q, .formatted text⟩ ∈ b.callsOf q world := by
  unfold Backend.answer at h
  unfold Backend.callsOf
  cases havailable : b.isAvailable world with
  | false => simp [havailable, Outcome.failed] at h
  | true =>
    rcases hformat : b.format q world with ⟨_ | _ | _, world'⟩ <;>
      simp_all [Outcome.failed]

/-- The language of a request with a backend is a language of the registry. -/
theorem Submission.language_mem {x : Submission} (user : Overrides) {b : Backend σ}
    (hr : s.registry.backend? x.canonical = some b) :
    (x.request user).language ∈ s.registry.languages := by
  have hmem := Registry.mem_languages_of_backend? hr
  have hstable : Language.normalize x.canonical = x.canonical :=
    Language.normalize_normalize x.language
  rw [Submission.request_language, ← hstable]
  exact hmem

/-- The request of a submission whose settings can be read. -/
theorem Event.request?_eq {e : Event} {x : Submission} {user : Overrides}
    (hx : e.submission? = some x) (hu : x.user = .ok user) :
    e.request? = some (x.request user) := by
  unfold Event.request?
  rw [hx]
  simp [hu, Except.toOption]

/-- Whom an event calls, it asks for the request that it makes. -/
theorem request?_of_mem_calls {e : Event} {st : State σ} {c : Call σ}
    (hc : c ∈ s.calls e st) : e.request? = some c.request := by
  cases hx : e.submission? with
  | none =>
    obtain ⟨ms, rfl⟩ | rfl := Event.idle_cases hx
    · cases hc
    · cases hc
  | some x =>
    obtain ⟨o, st', calls, -, hcalls, hhandling⟩ := s.step_handling hx st
    rw [hcalls] at hc
    cases hhandling with
    | limited | malformed | oversized | unsupported | hit => cases hc
    | @asked user b hq hu hb hr hfind =>
      rw [Event.request?_eq hx hu]
      unfold Backend.callsOf at hc
      split_ifs at hc
      · rw [List.mem_singleton.mp hc]
      · cases hc

/-- A hit calls nobody. -/
theorem calls_of_hit {e : Event} {x : Submission} {st : State σ} {user : Overrides} {b : Backend σ}
    {text : String} (hx : e.submission? = some x) (hq : (st.charge x.caller).1 = true)
    (hu : x.user = .ok user) (hb : x.code.utf8ByteSize ≤ s.config.maxInputBytes)
    (hr : s.registry.backend? x.canonical = some b)
    (hc : st.cache.find? (x.request user).key = some text) : s.calls e st = [] := by
  have hrecorded := s.registry.recorded_backend? x.canonical
  rw [hr] at hrecorded
  unfold Service.calls
  rw [step_eq_serve s.recorded hx, serve_hit (s := s.recorded) hq hu hb hrecorded hc]
  rfl

/-- A submission keeps the source of all entries, and its success is an answer given since the cache
was last cleared. -/
theorem Sourced.submission (hfree : CollisionFree requests) (hnames : s.registry.NamesFit)
    {e : Event} {x : Submission} (hx : e.submission? = some x)
    (hrequest : ∀ q, e.request? = some q → q ∈ requests) {st : State σ}
    (hc : Sourced s requests past st.cache) :
    Sourced s requests (past ++ [s.happening e st]) (s.step e st).2.cache ∧
    ∀ text, (s.step e st).1 = some ⟨text, none⟩ →
      ∃ q, e.request? = some q ∧ Given s (past ++ [s.happening e st]) q text := by
  have hclear : (s.happening e st).event ≠ .clearCache := by
    rintro rfl
    simp [Event.submission?] at hx
  have hkept := hc.snoc hclear
  obtain ⟨o, st', calls, hstep, hcalls, hhandling⟩ := s.step_handling hx st
  have hcalled : (s.happening e st).calls = calls := hcalls
  rw [hstep]
  cases hhandling with
  | limited | malformed | oversized | unsupported =>
    refine ⟨hkept, ?_⟩
    intro text htext
    simp [Outcome.failed] at htext
  | @hit user b text hq hu hb hr hfind =>
    refine ⟨hkept.get _, ?_⟩
    intro text htext
    have hrequest? := Event.request?_eq hx hu
    obtain ⟨q, hmem, hkey, hl, hgiven⟩ := hkept _ (Cache.mem_of_find? hfind)
    -- The entry found is that of a request with the same key, which is this request.
    obtain rfl := hfree.eq_of_key hnames hmem (hrequest _ hrequest?) hl
      (Submission.language_mem user hr) hkey
    obtain rfl : _ = text := by simpa using htext
    exact ⟨_, hrequest?, hgiven⟩
  | @asked user b hq hu hb hr hfind =>
    have hrequest? := Event.request?_eq hx hu
    have hbound : s.registry.backend? (x.request user).language = some b := by
      rw [Submission.request_language]
      exact hr
    have hgiven : ∀ text, (b.answer (x.request user) st.world).1 = ⟨text, none⟩ →
        Given s (past ++ [s.happening e st]) (x.request user) text := by
      intro text htext
      refine given_last ⟨b, hbound, ?_⟩
      rw [hcalled]
      exact mem_callsOf_of_answer htext
    refine ⟨?_, fun text htext => ⟨_, hrequest?, hgiven text (Option.some.inj htext)⟩⟩
    unfold State.answered Outcome.isSuccess
    rcases hanswer : (b.answer (x.request user) st.world).1 with ⟨text, _ | failure⟩
    · exact (hkept.get _).insert
        ⟨_, hrequest _ hrequest?, rfl, Submission.language_mem user hr, hgiven text hanswer⟩
    · exact hkept.get _

/-- An event that is no submission keeps the source of all entries and has no outcome. -/
theorem Sourced.idle {e : Event} (hx : e.submission? = none) {st : State σ}
    (hc : Sourced s requests past st.cache) :
    Sourced s requests (past ++ [s.happening e st]) (s.step e st).2.cache ∧
      (s.step e st).1 = none := by
  obtain ⟨ms, rfl⟩ | rfl := Event.idle_cases hx
  · exact ⟨hc.snoc (by simp [happening]), rfl⟩
  · exact ⟨Cache.holds_clear _ _, rfl⟩

/-- Along a run every success is an answer given since the cache was last cleared. -/
theorem Sourced.trace (hfree : CollisionFree requests) (hnames : s.registry.NamesFit) :
    ∀ {es : List Event} {past : List (Happening σ)} {st : State σ},
      (∀ e ∈ es, ∀ q, e.request? = some q → q ∈ requests) → Sourced s requests past st.cache →
      ∀ {before : List (Happening σ)} {h : Happening σ} {after : List (Happening σ)},
        s.trace es st = before ++ h :: after → ∀ {text : String}, h.outcome = some ⟨text, none⟩ →
          ∃ q, h.event.request? = some q ∧ Given s (past ++ before ++ [h]) q text
  | [], past, st, _, _, before, h, after, htrace, text, _ => by simp [Service.trace] at htrace
  | e :: es, past, st, hrequests, hc, before, h, after, htrace, text, htext => by
    -- By induction on the events, with a past that grows by one event at each step.
    have hfirst := hrequests e List.mem_cons_self
    unfold Service.trace at htrace
    have hstep : Sourced s requests (past ++ [s.happening e st]) (s.step e st).2.cache ∧
        ∀ text, (s.step e st).1 = some ⟨text, none⟩ →
          ∃ q, e.request? = some q ∧ Given s (past ++ [s.happening e st]) q text := by
      cases hx : e.submission? with
      | none =>
        obtain ⟨hc', hnone⟩ := hc.idle hx
        exact ⟨hc', fun text htext => by simp [hnone] at htext⟩
      | some x => exact hc.submission hfree hnames hx hfirst
    obtain ⟨hc', hanswer⟩ := hstep
    cases before with
    | nil =>
      obtain ⟨rfl, -⟩ := List.cons.inj htrace
      rw [List.append_nil]
      exact hanswer text htext
    | cons first before =>
      obtain ⟨rfl, htail⟩ := List.cons.inj htrace
      have hrest := Sourced.trace hfree hnames
        (fun e he => hrequests e (List.mem_cons_of_mem _ he)) hc' htail htext
      rw [List.append_assoc past] at hrest
      exact hrest

end sources

/-! ## Backends that are functions of the request -/

section stateless

variable {s : Service σ} {requests : List Request}

/-- Every entry of the cache is what the backend bound to the language of some request answers to
it in any world, and is kept under the key of that request. -/
def Settled (r : Registry σ) (requests : List Request) (c : Cache Blake3.Digest) : Prop :=
  c.Holds fun key text => ∃ q ∈ requests, q.key = key ∧ q.language ∈ r.languages ∧
    ∃ b, r.backend? q.language = some b ∧ ∀ world, (b.answer q world).1 = ⟨text, none⟩

/-- A submission that reaches the cache has the outcome that its backend gives in any world,
whatever the cache holds, and the entries stay what the backends answer. -/
theorem Settled.reach (hfree : CollisionFree requests) (hnames : s.registry.NamesFit)
    {x : Submission} {user : Overrides} {b : Backend σ} {st : State σ} {o : Outcome}
    (hc : Settled s.registry requests st.cache) (hrequest : x.request user ∈ requests)
    (hq : (st.charge x.caller).1 = true) (hu : x.user = .ok user)
    (hb : x.code.utf8ByteSize ≤ s.config.maxInputBytes)
    (hr : s.registry.backend? x.canonical = some b)
    (ho : ∀ world, (b.answer (x.request user) world).1 = o) :
    (s.serve x st).1 = o ∧ Settled s.registry requests (s.serve x st).2.cache := by
  have hbound : s.registry.backend? (x.request user).language = some b := by
    rw [Submission.request_language]
    exact hr
  have hl := Submission.language_mem user hr
  cases hfind : st.cache.find? (x.request user).key with
  | some text =>
    rw [serve_hit hq hu hb hr hfind]
    -- Requests with one key are one request, so the entry answers this one.
    obtain ⟨q, hmem, hkey, hl', b', hbound', htext⟩ := hc _ (Cache.mem_of_find? hfind)
    obtain rfl := hfree.eq_of_key hnames hmem hrequest hl' hl hkey
    obtain rfl : b' = b := Option.some.inj (hbound'.symm.trans hbound)
    exact ⟨(htext st.world).symm.trans (ho st.world), Cache.Holds.get hc _⟩
  | none =>
    rw [serve_asked hq hu hb hr hfind]
    refine ⟨ho st.world, ?_⟩
    unfold State.answered Outcome.isSuccess
    rw [ho st.world]
    have hlooked : Settled s.registry requests ((st.cache.get (x.request user).key).2) :=
      Cache.Holds.get hc _
    obtain ⟨text, _ | failure⟩ := o
    · exact Cache.Holds.insert hlooked ⟨_, hrequest, rfl, hl, b, hbound, ho⟩
    · exact hlooked

/-- The windows, the time and the submission determine the outcome, for any cache of settled
entries, of any capacity, and for any world. -/
theorem Settled.determined (hfree : CollisionFree requests) (hnames : s.registry.NamesFit)
    (hstateless : s.registry.Stateless) {x : Submission}
    (hrequest : ∀ user, x.user = .ok user → x.request user ∈ requests) (l : Limiter) (t : ℕ) :
    ∃ o, ∀ (capacity : ℕ) (st : State σ), st.limiter = l → st.now = t →
      Settled s.registry requests st.cache →
        ((s.withCapacity capacity).serve x st).1 = o ∧
          Settled s.registry requests ((s.withCapacity capacity).serve x st).2.cache := by
  -- The stages in front of the cache read the windows and the time only.
  cases hq : (l.check t x.caller).1 with
  | false =>
    refine ⟨.failed x.code (.rateLimited (l.check t x.caller).2.quota), ?_⟩
    rintro capacity st rfl rfl hc
    have hcharge : (st.charge x.caller).1 = false := hq
    rw [serve_limited hcharge]
    exact ⟨rfl, hc⟩
  | true =>
    cases hu : x.user with
    | error e =>
      refine ⟨.failed x.code (.settings e), ?_⟩
      rintro capacity st rfl rfl hc
      have hcharge : (st.charge x.caller).1 = true := hq
      rw [serve_malformed hcharge hu]
      exact ⟨rfl, hc⟩
    | ok user =>
      rcases Nat.lt_or_ge s.config.maxInputBytes x.code.utf8ByteSize with hb | hb
      · refine ⟨.failed x.code (.oversized x.code.utf8ByteSize s.config.maxInputBytes), ?_⟩
        rintro capacity st rfl rfl hc
        have hcharge : (st.charge x.caller).1 = true := hq
        rw [serve_oversized (s := s.withCapacity capacity) hcharge hu hb]
        exact ⟨rfl, hc⟩
      · cases hr : s.registry.backend? x.canonical with
        | none =>
          refine ⟨.failed x.code (.unsupported x.canonical), ?_⟩
          rintro capacity st rfl rfl hc
          have hcharge : (st.charge x.caller).1 = true := hq
          rw [serve_unsupported (s := s.withCapacity capacity) hcharge hu hb hr]
          exact ⟨rfl, hc⟩
        | some b =>
          obtain ⟨o, ho⟩ :=
            hstateless b (Registry.mem_backends_of_backend? hr) (x.request user)
          refine ⟨o, ?_⟩
          rintro capacity st rfl rfl hc
          exact Settled.reach (s := s.withCapacity capacity) hfree hnames hc (hrequest user hu) hq
            hu hb hr ho

/-- Two states differ in their caches, whose entries are settled, and in their worlds only. -/
structure Alike (r : Registry σ) (requests : List Request) (st st' : State σ) : Prop where
  limiter : st.limiter = st'.limiter
  now : st.now = st'.now
  settled : Settled r requests st.cache
  settled' : Settled r requests st'.cache

/-- An event has one outcome in alike states, for caches of any capacities, and leaves them
alike. -/
theorem Alike.step (hfree : CollisionFree requests) (hnames : s.registry.NamesFit)
    (hstateless : s.registry.Stateless) {e : Event}
    (hrequest : ∀ q, e.request? = some q → q ∈ requests) {st st' : State σ}
    (h : Alike s.registry requests st st') (capacity capacity' : ℕ) :
    ((s.withCapacity capacity).step e st).1 = ((s.withCapacity capacity').step e st').1 ∧
      Alike s.registry requests ((s.withCapacity capacity).step e st).2
        ((s.withCapacity capacity').step e st').2 := by
  cases hx : e.submission? with
  | none =>
    obtain ⟨ms, rfl⟩ | rfl := Event.idle_cases hx
    · exact ⟨rfl, h.limiter, congrArg (· + ms) h.now, h.settled, h.settled'⟩
    · exact ⟨rfl, h.limiter, h.now, Cache.holds_clear _ _, Cache.holds_clear _ _⟩
  | some x =>
    rw [step_eq_serve _ hx, step_eq_serve _ hx]
    obtain ⟨o, ho⟩ := Settled.determined hfree hnames hstateless
      (fun user hu => hrequest _ (Event.request?_eq hx hu)) st.limiter st.now
    obtain ⟨heq, hsettled⟩ := ho capacity st rfl rfl h.settled
    obtain ⟨heq', hsettled'⟩ := ho capacity' st' h.limiter.symm h.now.symm h.settled'
    obtain ⟨_, -, hhandling⟩ := (s.withCapacity capacity).serve_handling x st
    obtain ⟨_, -, hhandling'⟩ := (s.withCapacity capacity').serve_handling x st'
    obtain ⟨hlimiter, hnow⟩ := hhandling.limiter_now
    obtain ⟨hlimiter', hnow'⟩ := hhandling'.limiter_now
    refine ⟨?_, ?_, ?_, hsettled, hsettled'⟩
    · rw [heq, heq']
    · rw [hlimiter, hlimiter', h.limiter, h.now]
    · rw [hnow, hnow', h.now]

/-- A run has the same outcomes from alike states, for caches of any capacities. -/
theorem Alike.run (hfree : CollisionFree requests) (hnames : s.registry.NamesFit)
    (hstateless : s.registry.Stateless) (capacity capacity' : ℕ) :
    ∀ {es : List Event} {st st' : State σ},
      (∀ e ∈ es, ∀ q, e.request? = some q → q ∈ requests) → Alike s.registry requests st st' →
        ((s.withCapacity capacity).run es st).1 = ((s.withCapacity capacity').run es st').1
  | [], _, _, _, _ => rfl
  | e :: es, st, st', hrequests, h => by
    obtain ⟨houtcome, halike⟩ :=
      h.step hfree hnames hstateless (hrequests e List.mem_cons_self) capacity capacity'
    have hrest := Alike.run hfree hnames hstateless capacity capacity'
      (fun e he => hrequests e (List.mem_cons_of_mem _ he)) halike
    rw [run_cons, run_cons, houtcome, hrest]

end stateless

/-- In every run of every service, a success is what the backend bound to the canonical language
answered to a call with exactly the code, the language and the resolved settings of the request,
during the request or during an earlier one since the cache was last cleared. And if the backends
are functions of the request, then the outcomes of the run do not depend on the capacity of the
cache, which may as well hold nothing. The digests must not collide on the requests of the run. -/
theorem cache_transparent (s : Service σ) (world : σ) (es : List Event)
    (hnames : s.registry.NamesFit) (hfree : CollisionFree (es.filterMap Event.request?)) :
    (∀ before h after text, s.trace es (s.start world) = before ++ h :: after →
      h.outcome = some ⟨text, none⟩ →
        ∃ q older h' newer, h.event.request? = some q ∧ before ++ [h] = older ++ h' :: newer ∧
          (∀ n ∈ newer, n.event ≠ .clearCache) ∧ h'.Answers s q text) ∧
    (s.registry.Stateless → ∀ capacity,
      ((s.withCapacity capacity).run es ((s.withCapacity capacity).start world)).1
        = ((s.withCapacity 0).run es ((s.withCapacity 0).start world)).1) := by
  have hrequests : ∀ e ∈ es, ∀ q, e.request? = some q → q ∈ es.filterMap Event.request? :=
    fun e he q hq => List.mem_filterMap.mpr ⟨e, he, hq⟩
  refine ⟨?_, ?_⟩
  · intro before h after text htrace htext
    have hstart : Sourced s (es.filterMap Event.request?) [] (s.start world).cache := by
      intro p hp
      simp [start] at hp
    obtain ⟨q, hq, older, h', newer, heq, hnewer, hanswers⟩ :=
      hstart.trace hfree hnames hrequests htrace htext
    exact ⟨q, older, h', newer, hq, heq, hnewer, hanswers⟩
  · intro hstateless capacity
    have hstart : Alike s.registry (es.filterMap Event.request?)
        ((s.withCapacity capacity).start world) ((s.withCapacity 0).start world) := by
      refine ⟨rfl, rfl, ?_, ?_⟩ <;>
      · intro p hp
        simp [start] at hp
    exact hstart.run hfree hnames hstateless capacity 0 hrequests

/-- A service with one backend, which doubles the code and counts its calls. -/
def doubling : Service ℕ where
  registry.backends := [{
    profile := { id := "double", name := "Doubler", languages := ["js"] }
    format := fun q n => (.formatted (q.code ++ q.code), n + 1) }]
  registry.bindings := [("javascript", "double")]

/-- A request for JavaScript with the settings where nothing is set. -/
def scriptRequest (code : String) : Request :=
  ⟨code, "javascript", Settings.resolve {} "javascript"⟩

/-- The requests of three callers, of which the last is the first under another name of the
language. -/
def revisit : List Event :=
  [.format "ann" "x" "js" {}, .format "ben" "y" "js" {}, .format "cleo" "x" "JavaScript" {}]

/-- A short name of JavaScript. -/
theorem normalize_js : Language.normalize "js" = "javascript" := by decide +kernel

/-- The name of JavaScript as it is written. -/
theorem normalize_javaScript : Language.normalize "JavaScript" = "javascript" := by decide +kernel

/-- JavaScript is bound to the doubler. -/
theorem exists_doubler {x : Submission} (hl : x.canonical = "javascript") :
    ∃ b, doubling.registry.backend? x.canonical = some b ∧
      ∀ q n, b.answer q n = (⟨q.code ++ q.code, none⟩, n + 1) := by
  have hscript : Language.normalize "javascript" = "javascript" := by decide +kernel
  refine ⟨doubling.registry.backends.head (by simp [doubling]), ?_, fun _ _ => rfl⟩
  rw [hl]
  simp [Registry.backend?, hscript, doubling, Registry.named?, Backend.id]

section

variable {caller code language text : String} {st : State ℕ}

/-- A request for JavaScript is the one with the canonical name. -/
theorem request_script (hl : Language.normalize language = "javascript") :
    (Submission.mk caller code language (.ok {})).request {} = scriptRequest code := by
  have hcanonical : (Submission.mk caller code language (.ok {})).canonical = "javascript" := hl
  rw [Submission.request, hcanonical]
  rfl

/-- The request that an event makes for JavaScript. -/
theorem request?_script (hl : Language.normalize language = "javascript") :
    Event.request? (.format caller code language {}) = some (scriptRequest code) := by
  rw [← request_script hl]
  exact Event.request?_eq rfl rfl

/-- Code that is not in the cache is doubled, and the result is kept. -/
theorem step_doubling (hq : (st.charge caller).1 = true) (hb : code.utf8ByteSize ≤ 1048576)
    (hl : Language.normalize language = "javascript")
    (hc : st.cache.find? (scriptRequest code).key = none) :
    (doubling.step (.format caller code language {}) st).2 =
      { (st.charge caller).2 with
        cache := (st.cache.get (scriptRequest code).key).2.insert (scriptRequest code).key
          (code ++ code)
        world := st.world + 1 } := by
  obtain ⟨b, hr, hanswer⟩ := exists_doubler (x := ⟨caller, code, language, .ok {}⟩) hl
  have hu : (Submission.mk caller code language (.ok {})).user = .ok {} := rfl
  rw [← request_script hl] at hc
  have hsubmission : Event.submission? (.format caller code language {})
      = some ⟨caller, code, language, .ok {}⟩ := rfl
  rw [step_eq_serve doubling hsubmission, serve_asked hq hu hb hr hc, hanswer, request_script hl]
  rfl

/-- Code that is in the cache is answered from there, without a call. -/
theorem happening_doubling (hq : (st.charge caller).1 = true) (hb : code.utf8ByteSize ≤ 1048576)
    (hl : Language.normalize language = "javascript")
    (hc : st.cache.find? (scriptRequest code).key = some text) :
    (doubling.happening (.format caller code language {}) st).outcome = some ⟨text, none⟩ ∧
      (doubling.happening (.format caller code language {}) st).calls = [] := by
  obtain ⟨b, hr, -⟩ := exists_doubler (x := ⟨caller, code, language, .ok {}⟩) hl
  have hu : (Submission.mk caller code language (.ok {})).user = .ok {} := rfl
  rw [← request_script hl] at hc
  have hsubmission : Event.submission? (.format caller code language {})
      = some ⟨caller, code, language, .ok {}⟩ := rfl
  refine ⟨?_, calls_of_hit hsubmission hq hu hb hr hc⟩
  unfold happening
  rw [step_eq_serve doubling hsubmission, serve_hit hq hu hb hr hc]

end

/-- The bytes that stand for such a request, for code of one letter. -/
def scriptBytes (letter : UInt8) : List UInt8 :=
  [10, 0, 0, 0, 0, 0, 0, 0, 106, 97, 118, 97, 115, 99, 114, 105, 112, 116, 215, 0, 0, 0, 0, 0, 0, 0,
    123, 34, 105, 110, 100, 101, 110, 116, 87, 105, 100, 116, 104, 34, 58, 50, 44, 34, 117, 115,
    101, 84, 97, 98, 115, 34, 58, 102, 97, 108, 115, 101, 44, 34, 113, 117, 111, 116, 101, 83, 116,
    121, 108, 101, 34, 58, 34, 100, 111, 117, 98, 108, 101, 34, 44, 34, 115, 101, 109, 105, 34, 58,
    116, 114, 117, 101, 44, 34, 116, 114, 97, 105, 108, 105, 110, 103, 67, 111, 109, 109, 97, 34,
    58, 34, 101, 115, 53, 34, 44, 34, 108, 105, 110, 101, 87, 114, 97, 112, 34, 58, 56, 48, 44, 34,
    107, 101, 121, 119, 111, 114, 100, 67, 97, 115, 101, 34, 58, 34, 112, 114, 101, 115, 101, 114,
    118, 101, 34, 44, 34, 99, 111, 109, 109, 97, 80, 111, 115, 105, 116, 105, 111, 110, 34, 58, 34,
    97, 102, 116, 101, 114, 34, 44, 34, 97, 108, 105, 103, 110, 69, 110, 116, 114, 105, 101, 115,
    34, 58, 102, 97, 108, 115, 101, 44, 34, 97, 108, 105, 103, 110, 67, 111, 109, 109, 101, 110,
    116, 115, 34, 58, 116, 114, 117, 101, 44, 34, 105, 110, 100, 101, 110, 116, 84, 97, 98, 108,
    101, 115, 34, 58, 102, 97, 108, 115, 101, 125, 1, 0, 0, 0, 0, 0, 0, 0, letter]

/-- The two requests have different keys. -/
theorem scriptRequest_key_ne : (scriptRequest "x").key ≠ (scriptRequest "y").key := by
  have hx : (scriptRequest "x").encoding = scriptBytes 120 := by decide +kernel
  have hy : (scriptRequest "y").encoding = scriptBytes 121 := by decide +kernel
  have hdigest : (Blake3.digest ⟨(scriptBytes 120).toArray⟩).words[0] = 2743778749 := by
    decide +kernel
  have hdigest' : (Blake3.digest ⟨(scriptBytes 121).toArray⟩).words[0] = 1684215246 := by
    decide +kernel
  intro hkeys
  have hdigests : Blake3.digest ⟨(scriptRequest "x").encoding.toArray⟩ =
      Blake3.digest ⟨(scriptRequest "y").encoding.toArray⟩ := hkeys
  rw [hx, hy] at hdigests
  rw [hdigests, hdigest'] at hdigest
  exact absurd hdigest (by decide)

/-- The requests of the run. -/
theorem requests_revisit :
    revisit.filterMap Event.request? =
      [scriptRequest "x", scriptRequest "y", scriptRequest "x"] := by
  simp [revisit, request?_script, normalize_js, normalize_javaScript]

/-- The digests do not collide on the requests of the run. -/
theorem collisionFree_revisit : CollisionFree (revisit.filterMap Event.request?) := by
  have hdigests : Blake3.digest ⟨(scriptRequest "x").encoding.toArray⟩ ≠
      Blake3.digest ⟨(scriptRequest "y").encoding.toArray⟩ := scriptRequest_key_ne
  have hencodings : ∀ bytes ∈ (revisit.filterMap Event.request?).map Request.encoding,
      bytes = (scriptRequest "x").encoding ∨ bytes = (scriptRequest "y").encoding := by
    rw [requests_revisit]
    simp
  intro bytes hbytes bytes' hbytes' hdigest
  rcases hencodings bytes hbytes with rfl | rfl
  · rcases hencodings bytes' hbytes' with rfl | rfl
    · rfl
    · exact absurd hdigest hdigests
  · rcases hencodings bytes' hbytes' with rfl | rfl
    · exact absurd hdigest.symm hdigests
    · rfl

/-- The last request of the run finds the result of the first. -/
theorem trace_revisit :
    ∃ st' st'', doubling.trace revisit (doubling.start 0) =
        [doubling.happening (.format "ann" "x" "js" {}) (doubling.start 0),
          doubling.happening (.format "ben" "y" "js" {}) st',
          doubling.happening (.format "cleo" "x" "JavaScript" {}) st''] ∧
      (doubling.happening (.format "cleo" "x" "JavaScript" {}) st'').outcome =
        some ⟨"xx", none⟩ ∧
      (doubling.happening (.format "cleo" "x" "JavaScript" {}) st'').calls = [] := by
  have hxx : "x" ++ "x" = "xx" := by decide
  -- The first request finds the cache empty.
  obtain ⟨st', hst'⟩ : ∃ st', st' = (doubling.step (.format "ann" "x" "js" {})
    (doubling.start 0)).2 := ⟨_, rfl⟩
  have hfirst := hst'
  rw [step_doubling rfl (by decide) normalize_js rfl, hxx] at hfirst
  have hheld : st'.cache.Resident (scriptRequest "x").key "xx" 0 := by
    rw [hfirst]
    exact Cache.resident_insert rfl (by decide)
  -- The second has another key, so it finds nothing either, and there is room for its result.
  have hmissing : st'.cache.find? (scriptRequest "y").key = none := by
    have hentries : st'.cache.entries = [((scriptRequest "x").key, "xx")] := by
      rw [hfirst]
      rfl
    unfold Cache.find?
    rw [hentries, Table.lookup_cons, if_neg scriptRequest_key_ne.symm]
    rfl
  have hroom : st'.cache.capacity = 50 := by
    rw [hfirst]
    rfl
  obtain ⟨st'', hst''⟩ : ∃ st'', st'' = (doubling.step (.format "ben" "y" "js" {}) st').2 :=
    ⟨_, rfl⟩
  have hsecond := hst''
  have hadmitted : (st'.charge "ben").1 = true := by
    rw [hfirst]
    rfl
  rw [step_doubling hadmitted (by decide) normalize_js hmissing] at hsecond
  have hheld' : st''.cache.Resident (scriptRequest "x").key "xx" 1 := by
    rw [hsecond]
    refine (hheld.get (scriptRequest "y").key).insert ?_ ?_
    · rwa [Cache.find?, Cache.get_entries]
    · rw [Cache.get_capacity, hroom]
      decide
  -- The third has the key of the first.
  have hadmitted' : (st''.charge "cleo").1 = true := by
    rw [hsecond, hfirst]
    rfl
  refine ⟨st', st'', ?_, happening_doubling hadmitted' (by decide) normalize_javaScript
    hheld'.find?⟩
  unfold revisit
  rw [trace_cons, trace_cons, trace_cons, ← hst', ← hst'']
  rfl

/-- The last of the requests is answered without a call, by the text that the backend gave for the
first, although another request has come in between, and all are answered the same without a
cache. -/
theorem cache_transparent_doubling :
    doubling.registry.NamesFit ∧ doubling.registry.Stateless ∧
      CollisionFree (revisit.filterMap Event.request?) ∧
      (∃ first second third, doubling.trace revisit (doubling.start 0) = [first, second, third] ∧
        third.outcome = some ⟨"xx", none⟩ ∧ third.calls = [] ∧
        first.Answers doubling (scriptRequest "x") "xx") ∧
      ∀ capacity, ((doubling.withCapacity capacity).run revisit
            ((doubling.withCapacity capacity).start 0)).1 =
          ((doubling.withCapacity 0).run revisit ((doubling.withCapacity 0).start 0)).1 := by
  have hnames : doubling.registry.NamesFit := by
    unfold Registry.NamesFit
    decide
  have hstateless : doubling.registry.Stateless := by
    intro b hb q
    obtain rfl := List.mem_singleton.mp hb
    exact ⟨⟨q.code ++ q.code, none⟩, fun _ => rfl⟩
  obtain ⟨hgiven, hcapacity⟩ :=
    cache_transparent doubling 0 revisit hnames collisionFree_revisit
  obtain ⟨st', st'', htrace, houtcome, hcalls⟩ := trace_revisit
  refine ⟨hnames, hstateless, collisionFree_revisit, ⟨_, _, _, htrace, houtcome, hcalls, ?_⟩,
    hcapacity hstateless⟩
  obtain ⟨q, older, h', newer, hq, hsplit, -, hanswers⟩ :=
    hgiven [_, _] _ [] "xx" htrace houtcome
  obtain rfl : q = scriptRequest "x" :=
    Option.some.inj (hq.symm.trans (request?_script normalize_javaScript))
  have hmem : h' ∈ older ++ h' :: newer := by simp
  rw [← hsplit] at hmem
  simp only [List.cons_append, List.nil_append, List.mem_cons, List.not_mem_nil, or_false] at hmem
  -- Neither the second request nor the third, which calls nobody, can have asked for this one.
  rcases hmem with rfl | rfl | rfl
  · exact hanswers
  · obtain ⟨b, -, hcall⟩ := hanswers
    have hrequest := (request?_of_mem_calls hcall).symm.trans (request?_script normalize_js)
    simp [scriptRequest] at hrequest
  · obtain ⟨b, -, hcall⟩ := hanswers
    rw [hcalls] at hcall
    cases hcall

end Service

end CodeTidy
