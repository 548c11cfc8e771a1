import CodeTidy.Proofs.Cache.Store
import CodeTidy.Proofs.Language.Normalize
import CodeTidy.Proofs.Service.Recording

/-!
# How a request is handled

A submission is a request as its caller makes it, by either entry point. `Handling` lists the six
ways in which a service can handle one, each with its condition, its outcome, the state behind it
and the calls of backends it makes, and `step_handling` says that there is no other. What a request
does to a service is read off this list and nowhere else. `recorded_step` says that the calls are
those that a record shows, and that keeping a record changes nothing.
-/

namespace CodeTidy

variable {σ : Type}

/-- The key under which the result of a request is kept. -/
def Request.key (q : Request) : Blake3.Digest := Cache.key q.language q.settings q.code

namespace Service

/-- A request as its caller makes it: the language by any name, and the settings, or the fault in
the bag that should give them. -/
structure Submission where
  caller : String
  code : String
  language : String
  user : Except Overrides.BagError Overrides

namespace Submission

/-- The canonical name of the language. -/
def canonical (x : Submission) : String := Language.normalize x.language

/-- The request as backends see it, for the settings of the user. -/
def request (x : Submission) (user : Overrides) : Request :=
  ⟨x.code, x.canonical, Settings.resolve user x.canonical⟩

/-- Backends see the canonical name. -/
@[simp]
theorem request_language (x : Submission) (user : Overrides) :
    (x.request user).language = x.canonical := by
  rw [request]

end Submission

namespace Event

/-- The submission that an event is. -/
def submission? : Event → Option Submission
  | .format caller code language user => some ⟨caller, code, language, .ok user⟩
  | .formatBag caller code language bag => some ⟨caller, code, language, Overrides.ofJson bag⟩
  | .advance _ => none
  | .clearCache => none

/-- An event that is no submission lets time pass or clears the cache. -/
theorem idle_cases {e : Event} (h : e.submission? = none) :
    (∃ ms, e = .advance ms) ∨ e = .clearCache := by
  cases e with
  | format caller code language user => cases h
  | formatBag caller code language bag => cases h
  | advance ms => exact .inl ⟨ms, rfl⟩
  | clearCache => exact .inr rfl

/-- The request that an event makes of the service, if its settings can be read. -/
def request? (e : Event) : Option Request :=
  e.submission?.bind fun x => x.user.toOption.map x.request

end Event

/-- What becomes of a submission, whichever entry point it comes by. -/
def serve (s : Service σ) (x : Submission) (st : State σ) : Outcome × State σ :=
  match x.user with
  | .ok user => s.format x.caller x.code x.language user st
  | .error e =>
    match st.charge x.caller with
    | (false, st) => (.failed x.code (.rateLimited st.limiter.quota), st)
    | (true, st) => (.failed x.code (.settings e), st)

/-- An event that is a submission is served. -/
theorem step_eq_serve (s : Service σ) {e : Event} {x : Submission} (h : e.submission? = some x)
    (st : State σ) : s.step e st = (some (s.serve x st).1, (s.serve x st).2) := by
  cases e with
  | format caller code language user =>
    obtain rfl := Option.some.inj h
    rfl
  | formatBag caller code language bag =>
    obtain rfl := Option.some.inj h
    have hbag : s.formatBag caller code language bag st
        = s.serve ⟨caller, code, language, Overrides.ofJson bag⟩ st := rfl
    rw [← hbag]
    rfl
  | advance ms => simp [Event.submission?] at h
  | clearCache => simp [Event.submission?] at h

/-- The state behind an answer: the look-up is counted, and a success is kept under its key. -/
def State.answered (st : State σ) (key : Blake3.Digest) (outcome : Outcome) (world : σ) : State σ :=
  let looked := (st.cache.get key).2
  { st with
    cache := if outcome.isSuccess then looked.insert key outcome.code else looked
    world }

/-- The ways in which a service handles a submission, with the outcome, the state behind it and the
calls of backends that it makes. -/
inductive Handling (s : Service σ) (st : State σ) (x : Submission) :
    Outcome → State σ → List (Call σ) → Prop
  /-- The caller has used up its quota. -/
  | limited (hq : (st.charge x.caller).1 = false) :
    Handling s st x (.failed x.code (.rateLimited (st.charge x.caller).2.limiter.quota))
      (st.charge x.caller).2 []
  /-- The settings bag is malformed. -/
  | malformed {e : Overrides.BagError} (hq : (st.charge x.caller).1 = true)
    (hu : x.user = .error e) :
    Handling s st x (.failed x.code (.settings e)) (st.charge x.caller).2 []
  /-- The code is too long. -/
  | oversized {user : Overrides} (hq : (st.charge x.caller).1 = true) (hu : x.user = .ok user)
    (hb : s.config.maxInputBytes < x.code.utf8ByteSize) :
    Handling s st x (.failed x.code (.oversized x.code.utf8ByteSize s.config.maxInputBytes))
      (st.charge x.caller).2 []
  /-- No backend is bound to the language. -/
  | unsupported {user : Overrides} (hq : (st.charge x.caller).1 = true) (hu : x.user = .ok user)
    (hb : x.code.utf8ByteSize ≤ s.config.maxInputBytes)
    (hr : s.registry.backend? x.canonical = none) :
    Handling s st x (.failed x.code (.unsupported x.canonical)) (st.charge x.caller).2 []
  /-- The result is in the cache. -/
  | hit {user : Overrides} {b : Backend σ} {text : String} (hq : (st.charge x.caller).1 = true)
    (hu : x.user = .ok user) (hb : x.code.utf8ByteSize ≤ s.config.maxInputBytes)
    (hr : s.registry.backend? x.canonical = some b)
    (hc : st.cache.find? (x.request user).key = some text) :
    Handling s st x ⟨text, none⟩
      { (st.charge x.caller).2 with cache := (st.cache.get (x.request user).key).2 } []
  /-- The backend bound to the language is asked. -/
  | asked {user : Overrides} {b : Backend σ} (hq : (st.charge x.caller).1 = true)
    (hu : x.user = .ok user) (hb : x.code.utf8ByteSize ≤ s.config.maxInputBytes)
    (hr : s.registry.backend? x.canonical = some b)
    (hc : st.cache.find? (x.request user).key = none) :
    Handling s st x (b.answer (x.request user) st.world).1
      ((st.charge x.caller).2.answered (x.request user).key (b.answer (x.request user) st.world).1
        (b.answer (x.request user) st.world).2)
      (b.callsOf (x.request user) st.world)

section stages

variable {s : Service σ} {x : Submission} {st : State σ} {user : Overrides}

/-- The first stage, for a caller without quota left. -/
theorem serve_limited (hq : (st.charge x.caller).1 = false) :
    s.serve x st = (.failed x.code (.rateLimited (st.charge x.caller).2.limiter.quota),
      (st.charge x.caller).2) := by
  obtain ⟨caller, code, language, _ | user⟩ := x <;>
  · unfold serve format
    generalize st.charge caller = charged at hq ⊢
    obtain ⟨admitted, st'⟩ := charged
    obtain rfl : admitted = false := hq
    rfl

/-- The settings stage, for a malformed bag. -/
theorem serve_malformed {e : Overrides.BagError} (hq : (st.charge x.caller).1 = true)
    (hu : x.user = .error e) :
    s.serve x st = (.failed x.code (.settings e), (st.charge x.caller).2) := by
  unfold serve
  rw [hu]
  generalize st.charge x.caller = charged at hq ⊢
  obtain ⟨admitted, st'⟩ := charged
  obtain rfl : admitted = true := hq
  rfl

/-- The stages behind the quota, for settings that can be read. -/
theorem serve_admitted (hq : (st.charge x.caller).1 = true) (hu : x.user = .ok user) :
    s.serve x st = s.admitted x.code x.language user (st.charge x.caller).2 := by
  unfold serve format
  rw [hu]
  generalize st.charge x.caller = charged at hq ⊢
  obtain ⟨admitted, st'⟩ := charged
  obtain rfl : admitted = true := hq
  rfl

/-- The size stage, for code that is too long. -/
theorem serve_oversized (hq : (st.charge x.caller).1 = true) (hu : x.user = .ok user)
    (hb : s.config.maxInputBytes < x.code.utf8ByteSize) :
    s.serve x st = (.failed x.code (.oversized x.code.utf8ByteSize s.config.maxInputBytes),
      (st.charge x.caller).2) := by
  rw [serve_admitted hq hu]
  exact if_pos hb

/-- The language stage, for a language without a backend. -/
theorem serve_unsupported (hq : (st.charge x.caller).1 = true) (hu : x.user = .ok user)
    (hb : x.code.utf8ByteSize ≤ s.config.maxInputBytes)
    (hr : s.registry.backend? x.canonical = none) :
    s.serve x st = (.failed x.code (.unsupported x.canonical), (st.charge x.caller).2) := by
  rw [serve_admitted hq hu]
  refine (if_neg (Nat.not_lt.mpr hb)).trans (if_pos ?_)
  show (!s.registry.isSupported x.canonical) = true
  unfold Registry.isSupported
  rw [hr]
  rfl

/-- The stages behind the language, for a language with a backend. -/
theorem serve_supported {b : Backend σ} (hq : (st.charge x.caller).1 = true)
    (hu : x.user = .ok user) (hb : x.code.utf8ByteSize ≤ s.config.maxInputBytes)
    (hr : s.registry.backend? x.canonical = some b) :
    s.serve x st = s.lookUpOrCall x.code x.canonical (Settings.resolve user x.canonical)
      (st.charge x.caller).2 := by
  rw [serve_admitted hq hu]
  refine (if_neg (Nat.not_lt.mpr hb)).trans (if_neg ?_)
  show ¬(!s.registry.isSupported x.canonical) = true
  unfold Registry.isSupported
  rw [hr]
  simp

/-- The cache stage, for a result that is kept. -/
theorem serve_hit {b : Backend σ} {text : String} (hq : (st.charge x.caller).1 = true)
    (hu : x.user = .ok user) (hb : x.code.utf8ByteSize ≤ s.config.maxInputBytes)
    (hr : s.registry.backend? x.canonical = some b)
    (hc : st.cache.find? (x.request user).key = some text) :
    s.serve x st = (⟨text, none⟩,
      { (st.charge x.caller).2 with cache := (st.cache.get (x.request user).key).2 }) := by
  rw [serve_supported hq hu hb hr]
  have hcharged : (st.charge x.caller).2.cache.find? (x.request user).key = some text := hc
  unfold Request.key Submission.request at *
  simp only [lookUpOrCall, Cache.get, hc, hcharged]
  rfl

/-- The registry asks the backend bound to the canonical name. -/
theorem format_canonical (user : Overrides) {b : Backend σ}
    (hr : s.registry.backend? x.canonical = some b) (world : σ) :
    s.registry.format x.code x.canonical (Settings.resolve user x.canonical) world
      = b.answer (x.request user) world := by
  have hstable : Language.normalize x.canonical = x.canonical :=
    Language.normalize_normalize x.language
  simp only [Registry.format, hstable, hr]
  rfl

/-- The backend stage, for a result that is not kept. -/
theorem serve_asked {b : Backend σ} (hq : (st.charge x.caller).1 = true)
    (hu : x.user = .ok user) (hb : x.code.utf8ByteSize ≤ s.config.maxInputBytes)
    (hr : s.registry.backend? x.canonical = some b)
    (hc : st.cache.find? (x.request user).key = none) :
    s.serve x st = ((b.answer (x.request user) st.world).1,
      (st.charge x.caller).2.answered (x.request user).key (b.answer (x.request user) st.world).1
        (b.answer (x.request user) st.world).2) := by
  rw [serve_supported hq hu hb hr]
  have hcharged : (st.charge x.caller).2.cache.find? (x.request user).key = none := hc
  have hformat := format_canonical user hr (st.charge x.caller).2.world
  unfold State.answered
  unfold Request.key Submission.request at *
  simp only [lookUpOrCall, Cache.get, hcharged, hformat]
  rfl

end stages

/-- A submission is handled in one of these ways, and a service with a record handles it the same
way and records the calls. -/
theorem serve_handling (s : Service σ) (x : Submission) (st : State σ) :
    ∃ calls, (∀ record, s.recorded.serve x (st.withRecord record)
        = ((s.serve x st).1, (s.serve x st).2.withRecord (record ++ calls))) ∧
      Handling s st x (s.serve x st).1 (s.serve x st).2 calls := by
  -- The stages in their order, each of which may end the handling.
  cases hq : (st.charge x.caller).1 with
  | false =>
    refine ⟨[], fun record => ?_, ?_⟩
    · rw [serve_limited (s := s.recorded) hq, serve_limited hq, List.append_nil]
      rfl
    · rw [serve_limited hq]
      exact .limited hq
  | true =>
    cases hu : x.user with
    | error e =>
      refine ⟨[], fun record => ?_, ?_⟩
      · rw [serve_malformed (s := s.recorded) hq hu, serve_malformed hq hu, List.append_nil]
        rfl
      · rw [serve_malformed hq hu]
        exact .malformed hq hu
    | ok user =>
      rcases Nat.lt_or_ge s.config.maxInputBytes x.code.utf8ByteSize with hb | hb
      · refine ⟨[], fun record => ?_, ?_⟩
        · rw [serve_oversized (s := s.recorded) hq hu hb, serve_oversized hq hu hb,
            List.append_nil]
          rfl
        · rw [serve_oversized hq hu hb]
          exact .oversized hq hu hb
      · have hrec := s.registry.recorded_backend? x.canonical
        cases hr : s.registry.backend? x.canonical with
        | none =>
          rw [hr] at hrec
          refine ⟨[], fun record => ?_, ?_⟩
          · rw [serve_unsupported (s := s.recorded) hq hu hb hrec, serve_unsupported hq hu hb hr,
              List.append_nil]
            rfl
          · rw [serve_unsupported hq hu hb hr]
            exact .unsupported hq hu hb hr
        | some b =>
          rw [hr] at hrec
          cases hc : st.cache.find? (x.request user).key with
          | some text =>
            refine ⟨[], fun record => ?_, ?_⟩
            · rw [serve_hit (s := s.recorded) hq hu hb hrec hc, serve_hit hq hu hb hr hc,
                List.append_nil]
              rfl
            · rw [serve_hit hq hu hb hr hc]
              exact .hit hq hu hb hr hc
          | none =>
            refine ⟨b.callsOf (x.request user) st.world, fun record => ?_, ?_⟩
            · have hanswer : b.recorded.answer (x.request user) (st.withRecord record).world = _ :=
                b.recorded_answer (x.request user) st.world record
              rw [serve_asked (s := s.recorded) hq hu hb hrec hc, serve_asked hq hu hb hr hc,
                hanswer]
              rfl
            · rw [serve_asked hq hu hb hr hc]
              exact .asked hq hu hb hr hc

/-- A submission has an outcome, and it is handled in one of these ways, which make the calls that
the record of the event shows. -/
theorem step_handling (s : Service σ) {e : Event} {x : Submission} (h : e.submission? = some x)
    (st : State σ) :
    ∃ o st' calls, s.step e st = (some o, st') ∧ s.calls e st = calls ∧
      Handling s st x o st' calls := by
  obtain ⟨calls, hrec, hhandling⟩ := s.serve_handling x st
  refine ⟨(s.serve x st).1, (s.serve x st).2, calls, step_eq_serve s h st, ?_, hhandling⟩
  unfold Service.calls
  rw [step_eq_serve s.recorded h, hrec]
  rfl

/-- Handling a submission charges it, and does nothing else to the windows and the time. -/
theorem Handling.limiter_now {x : Submission} {st st' : State σ} {o : Outcome}
    {calls : List (Call σ)} (h : Handling s st x o st' calls) :
    st'.limiter = (st.limiter.check st.now x.caller).2 ∧ st'.now = st.now := by
  cases h <;> exact ⟨rfl, rfl⟩

/-- A service whose backends keep a record has the same outcomes and the same state, and its record
grows by the calls of the event, whatever is on it. -/
theorem recorded_step (s : Service σ) (e : Event) (st : State σ) (record : List (Call σ)) :
    s.recorded.step e (st.withRecord record)
      = ((s.step e st).1, (s.step e st).2.withRecord (record ++ s.calls e st)) := by
  cases h : e.submission? with
  | some x =>
    obtain ⟨calls, hrec, -⟩ := s.serve_handling x st
    have hcalls : s.calls e st = calls := by
      unfold Service.calls
      rw [step_eq_serve s.recorded h, hrec]
      rfl
    rw [step_eq_serve s.recorded h, step_eq_serve s h, hrec, hcalls]
  | none =>
    -- Time passes and caches are cleared without a call.
    obtain ⟨ms, rfl⟩ | rfl := Event.idle_cases h
    · have hcalls : s.calls (.advance ms) st = [] := rfl
      rw [hcalls, List.append_nil]
      rfl
    · have hcalls : s.calls .clearCache st = [] := rfl
      rw [hcalls, List.append_nil]
      rfl

end Service

end CodeTidy
