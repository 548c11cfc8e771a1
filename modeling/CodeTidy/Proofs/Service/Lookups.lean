import CodeTidy.Proofs.Cache.Residency
import CodeTidy.Proofs.Service.Asking
import CodeTidy.Proofs.Service.Quota

/-!
# Every miss is asked once and is then held

A submission that passes the quota, the size and the language, with settings that can be read,
reaches the cache with one request: its code, the canonical name of its language and its settings,
resolved. `LookUp` lists the three ways in which an event meets the cache: it does not get there,
the result is found, or it is not and the registry is asked, once. The counters follow: hits and
misses count the requests that reach the cache, and misses count what the registry is asked.

A success that the registry gives is held while fewer than the capacity of others come in, so until
then the same request, however it is spelled, is answered from the cache.
-/

namespace CodeTidy

variable {σ : Type}

namespace Service

/-- The request with which a submission reaches the cache, if it passes the stages before and its
settings can be read. -/
def reaching? (s : Service σ) (st : State σ) (x : Submission) : Option Request :=
  match x.user with
  | .ok user =>
    if (st.charge x.caller).1 && decide (x.code.utf8ByteSize ≤ s.config.maxInputBytes)
        && s.registry.isSupported x.canonical then
      some (x.request user)
    else none
  | .error _ => none

/-- The request with which an event reaches the cache, if it does. -/
def looksUp? (s : Service σ) (st : State σ) (e : Event) : Option Request :=
  e.submission?.bind (s.reaching? st)

/-- An event that does not reach the cache counts nothing and asks nobody. -/
structure Passes (s : Service σ) (st : State σ) (e : Event) : Prop where
  stats : (s.step e st).2.cache.stats = st.cache.stats
  asked : s.asked e st = []

/-- An event is answered with a text from the cache: one hit is counted, the registry is not asked
and no backend is called. -/
structure Hits (s : Service σ) (st : State σ) (e : Event) (text : String) : Prop where
  outcome : (s.step e st).1 = some ⟨text, none⟩
  hits : (s.step e st).2.cache.stats.hits = st.cache.stats.hits + 1
  misses : (s.step e st).2.cache.stats.misses = st.cache.stats.misses
  asked : s.asked e st = []
  calls : s.calls e st = []

/-- An event is not answered from the cache: one miss is counted, and the registry is asked for the
request, once. -/
structure Misses (s : Service σ) (st : State σ) (e : Event) (q : Request) : Prop where
  hits : (s.step e st).2.cache.stats.hits = st.cache.stats.hits
  misses : (s.step e st).2.cache.stats.misses = st.cache.stats.misses + 1
  asked : s.asked e st = [q]

/-- The cache behind a miss: a success comes in. -/
def kept (c : Cache Blake3.Digest) (q : Request) (o : Outcome) : Cache Blake3.Digest :=
  if o.isSuccess then (c.get q.key).2.insert q.key o.code else (c.get q.key).2

/-- The ways in which an event meets the cache. -/
inductive LookUp (s : Service σ) (st : State σ) (e : Event) : Prop
  /-- It does not reach the cache. -/
  | passed (hx : s.looksUp? st e = none) (hpasses : Passes s st e)
    (hcache : e ≠ .clearCache → (s.step e st).2.cache = st.cache)
  /-- The result is there. -/
  | hit {q : Request} {text : String} (hx : s.looksUp? st e = some q)
    (hc : st.cache.find? q.key = some text) (hhits : Hits s st e text)
    (hcache : (s.step e st).2.cache = (st.cache.get q.key).2)
  /-- The result is not there. -/
  | miss {q : Request} {o : Outcome} (hx : s.looksUp? st e = some q)
    (hc : st.cache.find? q.key = none) (hmisses : Misses s st e q)
    (ho : (s.step e st).1 = some o) (hcache : (s.step e st).2.cache = kept st.cache q o)

/-- Has an event missed the cache and then succeeded? -/
def stores (s : Service σ) (st : State σ) (e : Event) : Bool :=
  !(s.asked e st).isEmpty && (s.step e st).1.any Outcome.isSuccess

/-- The events of a run with the states that they meet. -/
def moments (s : Service σ) : List Event → State σ → List (State σ × Event)
  | [], _ => []
  | e :: es, st => (st, e) :: s.moments es (s.step e st).2

/-- The requests of a run that reach the cache. -/
def lookedUp (s : Service σ) (es : List Event) (st : State σ) : List Request :=
  (s.moments es st).filterMap fun m => s.looksUp? m.1 m.2

/-- The requests that a run makes of the registry. -/
def askedBy (s : Service σ) (es : List Event) (st : State σ) : List Request :=
  (s.moments es st).flatMap fun m => s.asked m.2 m.1

/-- How many events of a run miss the cache and then succeed. -/
def storedBy (s : Service σ) (es : List Event) (st : State σ) : ℕ :=
  (s.moments es st).countP fun m => s.stores m.1 m.2

/-! ## One event -/

section step

variable {s : Service σ} {st : State σ} {e : Event} {x : Submission} {q : Request} {text : String}

/-- A success that comes in counts no look-up. -/
theorem kept_lookUps (c : Cache Blake3.Digest) (q : Request) (o : Outcome) :
    (kept c q o).stats.hits = (c.get q.key).2.stats.hits ∧
      (kept c q o).stats.misses = (c.get q.key).2.stats.misses := by
  unfold kept
  split_ifs
  · exact Cache.insert_lookUps _ _ _
  · exact ⟨rfl, rfl⟩

/-- What reaches the cache has passed the stages before. -/
theorem reaching?_eq_some (h : s.reaching? st x = some q) :
    ∃ user b, x.user = .ok user ∧ (st.charge x.caller).1 = true ∧
      x.code.utf8ByteSize ≤ s.config.maxInputBytes ∧ s.registry.backend? x.canonical = some b ∧
      q = x.request user := by
  unfold reaching? Registry.isSupported at h
  cases hu : x.user with
  | error e => simp [hu] at h
  | ok user =>
    simp only [hu, Option.ite_none_right_eq_some, Bool.and_eq_true, decide_eq_true_eq,
      Option.some.injEq] at h
    obtain ⟨⟨⟨hq, hb⟩, hr⟩, rfl⟩ := h
    obtain ⟨b, hr⟩ := Option.isSome_iff_exists.mp hr
    exact ⟨user, b, rfl, hq, hb, hr, rfl⟩

/-- What passes the stages before the cache reaches it. -/
theorem reaching?_of_passed {user : Overrides} {b : Backend σ} (hu : x.user = .ok user)
    (hq : (st.charge x.caller).1 = true) (hb : x.code.utf8ByteSize ≤ s.config.maxInputBytes)
    (hr : s.registry.backend? x.canonical = some b) :
    s.reaching? st x = some (x.request user) := by
  simp [reaching?, Registry.isSupported, hu, hq, hb, hr]

/-- What does not reach the cache is refused by a stage before. -/
theorem refuses_of_reaching? (h : s.reaching? st x = none) : s.Refuses st x := by
  cases hq : (st.charge x.caller).1 with
  | false => exact .inl hq
  | true =>
    cases hu : x.user with
    | error e => exact .inr (.inl ⟨e, hu⟩)
    | ok user =>
      rcases Nat.lt_or_ge s.config.maxInputBytes x.code.utf8ByteSize with hb | hb
      · exact .inr (.inr (.inl hb))
      · cases hr : s.registry.backend? x.canonical with
        | none => exact .inr (.inr (.inr hr))
        | some b => simp [reaching?_of_passed hu hq hb hr] at h

/-- A submission reaches the cache with its request. -/
theorem looksUp?_of_submission (hx : e.submission? = some x) :
    s.looksUp? st e = s.reaching? st x := by
  unfold looksUp?
  rw [hx]
  rfl

/-- Attending the backends makes no difference to what reaches the cache. -/
theorem attended_reaching? (s : Service σ) : s.attended.reaching? = s.reaching? := by
  have hsupported : s.attended.registry.isSupported = s.registry.isSupported :=
    s.registry.attended_isSupported
  funext st x
  unfold reaching?
  rw [hsupported]
  rfl

/-- How a submission that reaches the cache is handled: its result is there, and nobody is called,
or it is not, and the backend bound to the language is asked. -/
theorem Handling.reached {st' : State σ} {o : Outcome} {calls : List (Call σ)}
    (h : Handling s st x o st' calls) (hreach : s.reaching? st x = some q) :
    (∃ text, st.cache.find? q.key = some text ∧ o = ⟨text, none⟩ ∧
      st'.cache = (st.cache.get q.key).2 ∧ calls = []) ∨
    (st.cache.find? q.key = none ∧ st'.cache = kept st.cache q o ∧
      ∃ b, s.registry.backend? x.canonical = some b ∧ calls = b.callsOf q st.world) := by
  obtain ⟨user, b, hu, hq, hb, hr, rfl⟩ := reaching?_eq_some hreach
  cases h with
  | limited hq' => simp [hq] at hq'
  | malformed _ hu' => simp [hu] at hu'
  | oversized _ _ hb' => omega
  | unsupported _ _ _ hr' => simp [hr] at hr'
  | @hit user' _ text _ hu' _ _ hc =>
    obtain rfl : user' = user := Except.ok.inj (hu'.symm.trans hu)
    exact .inl ⟨text, hc, rfl, rfl, rfl⟩
  | @asked user' b' _ hu' _ hr' hc =>
    obtain rfl : user' = user := Except.ok.inj (hu'.symm.trans hu)
    exact .inr ⟨hc, rfl, b', hr', rfl⟩

/-- The registry is asked for a request that reaches the cache and is not answered there. -/
theorem asked_eq (s : Service σ) (hx : e.submission? = some x) (st : State σ) :
    s.asked e st = match s.reaching? st x with
      | none => []
      | some q => if (st.cache.find? q.key).isSome then [] else [q] := by
  -- The requests made of the registry are in the calls of the attended service.
  obtain ⟨o, st', calls, -, hcalls, hhandling⟩ := s.attended.step_handling hx st
  have hasked : s.asked e st = calls.map Call.request := congrArg (List.map _) hcalls
  rw [hasked, ← attended_reaching?]
  cases hreach : s.attended.reaching? st x with
  | none => rw [(hhandling.refused (refuses_of_reaching? hreach)).2, List.map_nil]
  | some q =>
    rcases hhandling.reached hreach with ⟨text, hc, -, -, rfl⟩ | ⟨hc, -, b, hb, rfl⟩
    · simp [hc]
    · have hbound := s.registry.attended_backend? x.canonical
      obtain ⟨b, -, rfl⟩ := Option.map_eq_some_iff.mp (hbound.symm.trans hb)
      rw [b.attended_callsOf]
      simp [hc]

/-- Every event meets the cache in one of these ways. -/
theorem lookUp (s : Service σ) (st : State σ) (e : Event) : LookUp s st e := by
  cases hx : e.submission? with
  | none =>
    have hnone : s.looksUp? st e = none := by simp [looksUp?, hx]
    obtain ⟨ms, rfl⟩ | rfl := Event.idle_cases hx
    · exact .passed hnone ⟨rfl, rfl⟩ fun _ => rfl
    · exact .passed hnone ⟨rfl, rfl⟩ fun h => absurd rfl h
  | some x =>
    have hlooks : s.looksUp? st e = s.reaching? st x := looksUp?_of_submission hx
    have hasked := s.asked_eq hx st
    obtain ⟨o, st', calls, hstep, hcalls, hhandling⟩ := s.step_handling hx st
    cases hreach : s.reaching? st x with
    | none =>
      have hcache : (s.step e st).2.cache = st.cache := by
        rw [hstep]
        exact (hhandling.refused (refuses_of_reaching? hreach)).1
      rw [hreach] at hasked
      exact .passed (hlooks.trans hreach) ⟨congrArg Cache.stats hcache, hasked⟩ fun _ => hcache
    | some q =>
      rcases hhandling.reached hreach with ⟨text, hc, rfl, hfound, hnone⟩ | ⟨hc, hmissed, -⟩
      · have hcache : (s.step e st).2.cache = (st.cache.get q.key).2 := by rw [hstep, hfound]
        refine .hit (hlooks.trans hreach) hc ⟨by rw [hstep], ?_, ?_, ?_, ?_⟩ hcache
        · rw [hcache, Cache.get_hit hc]
        · rw [hcache, Cache.get_hit hc]
        · simp [hasked, hreach, hc]
        · rw [hcalls, hnone]
      · have hcache : (s.step e st).2.cache = kept st.cache q o := by rw [hstep, hmissed]
        refine .miss (hlooks.trans hreach) hc ⟨?_, ?_, ?_⟩ (by rw [hstep]) hcache
        · rw [hcache, (kept_lookUps _ _ _).1, Cache.get_miss hc]
        · rw [hcache, (kept_lookUps _ _ _).2, Cache.get_miss hc]
        · simp [hasked, hreach, hc]

/-- An event that does not reach the cache counts nothing and asks nobody. -/
theorem passes_of_looksUp? (hx : s.looksUp? st e = none) : Passes s st e := by
  cases s.lookUp st e with
  | passed _ hpasses => exact hpasses
  | hit hx' => simp [hx] at hx'
  | miss hx' => simp [hx] at hx'

/-- A request that reaches the cache is a hit if its result is there. -/
theorem hits_of_find? (hx : s.looksUp? st e = some q) (hc : st.cache.find? q.key = some text) :
    Hits s st e text := by
  cases s.lookUp st e with
  | passed hx' => simp [hx] at hx'
  | @hit q' text' hx' hc' hhits =>
    obtain rfl : q' = q := Option.some.inj (hx'.symm.trans hx)
    obtain rfl : text' = text := Option.some.inj (hc'.symm.trans hc)
    exact hhits
  | @miss q' o hx' hc' =>
    obtain rfl : q' = q := Option.some.inj (hx'.symm.trans hx)
    simp [hc] at hc'

/-- A request that reaches the cache is a miss if its result is not there. -/
theorem misses_of_find? (hx : s.looksUp? st e = some q) (hc : st.cache.find? q.key = none) :
    Misses s st e q ∧
      ∃ o, (s.step e st).1 = some o ∧ (s.step e st).2.cache = kept st.cache q o := by
  cases s.lookUp st e with
  | passed hx' => simp [hx] at hx'
  | @hit q' text' hx' hc' =>
    obtain rfl : q' = q := Option.some.inj (hx'.symm.trans hx)
    simp [hc] at hc'
  | @miss q' o hx' hc' hmisses ho hcache =>
    obtain rfl : q' = q := Option.some.inj (hx'.symm.trans hx)
    exact ⟨hmisses, o, ho, hcache⟩

/-- A request that is a miss finds no result. -/
theorem Misses.find? (h : Misses s st e q) (hx : s.looksUp? st e = some q) :
    st.cache.find? q.key = none := by
  cases hc : st.cache.find? q.key with
  | none => rfl
  | some text =>
    have hnone := (hits_of_find? hx hc).asked
    simp [h.asked] at hnone

/-- A request that misses the cache and succeeds is held with nothing behind it. -/
theorem Misses.resident (h : Misses s st e q) (hx : s.looksUp? st e = some q)
    (ho : (s.step e st).1 = some ⟨text, none⟩) (hroom : 0 < st.cache.capacity) :
    (s.step e st).2.cache.Resident q.key text 0 := by
  have hc := h.find? hx
  obtain ⟨-, o, ho', hcache⟩ := misses_of_find? hx hc
  obtain rfl : o = ⟨text, none⟩ := Option.some.inj (ho'.symm.trans ho)
  rw [hcache]
  refine Cache.resident_insert ?_ ?_
  · rwa [Cache.find?, Cache.get_entries]
  · rwa [Cache.get_capacity]

/-- The capacity of the cache stays what it is. -/
theorem step_capacity (s : Service σ) (st : State σ) (e : Event) :
    (s.step e st).2.cache.capacity = st.cache.capacity := by
  cases s.lookUp st e with
  | passed hx hpasses hcache =>
    by_cases hclear : e = .clearCache
    · rw [hclear]
      rfl
    · rw [hcache hclear]
  | hit hx hc hhits hcache => rw [hcache, Cache.get_capacity]
  | miss hx hc hmisses ho hcache =>
    rw [hcache]
    unfold kept
    split_ifs
    · rw [Cache.insert_capacity, Cache.get_capacity]
    · rw [Cache.get_capacity]

/-- An event that stores nothing leaves what is held as it is. -/
theorem resident_step_of_not_stores {key : Blake3.Digest} {k : ℕ} (hclear : e ≠ .clearCache)
    (hstores : s.stores st e = false) (h : st.cache.Resident key text k) :
    (s.step e st).2.cache.Resident key text k := by
  cases s.lookUp st e with
  | passed hx hpasses hcache => rwa [hcache hclear]
  | hit hx hc hhits hcache =>
    rw [hcache]
    exact h.get _
  | @miss q o hx hc hmisses ho hcache =>
    have hfailed : o.isSuccess = false := by simpa [stores, hmisses.asked, ho] using hstores
    rw [hcache, kept, hfailed]
    exact h.get _

/-- A success that comes in leaves what is held as it is while there is room behind it. -/
theorem resident_step_of_stores {key : Blake3.Digest} {k : ℕ} (hstores : s.stores st e = true)
    (hroom : k + 1 < st.cache.capacity) (h : st.cache.Resident key text k) :
    (s.step e st).2.cache.Resident key text (k + 1) := by
  cases s.lookUp st e with
  | passed hx hpasses hcache => simp [stores, hpasses.asked] at hstores
  | hit hx hc hhits hcache => simp [stores, hhits.asked] at hstores
  | @miss q o hx hc hmisses ho hcache =>
    have hsuccess : o.isSuccess = true := by simpa [stores, hmisses.asked, ho] using hstores
    rw [hcache, kept, if_pos hsuccess]
    refine (h.get q.key).insert ?_ ?_
    · rwa [Cache.find?, Cache.get_entries]
    · rwa [Cache.get_capacity]

end step

/-! ## Runs -/

/-- The first event meets the first state. -/
theorem moments_cons (s : Service σ) (e : Event) (es : List Event) (st : State σ) :
    s.moments (e :: es) st = (st, e) :: s.moments es (s.step e st).2 := rfl

/-- Behind a run, hits and misses have counted the requests that reached the cache, and misses have
counted what the registry was asked. -/
theorem run_counted (s : Service σ) :
    ∀ (es : List Event) (st : State σ),
      (s.run es st).2.cache.stats.hits + (s.run es st).2.cache.stats.misses
          = st.cache.stats.hits + st.cache.stats.misses + (s.lookedUp es st).length ∧
        (s.run es st).2.cache.stats.misses
          = st.cache.stats.misses + (s.askedBy es st).length
  | [], _ => ⟨rfl, rfl⟩
  | e :: es, st => by
    obtain ⟨hlooked, hasked⟩ := s.run_counted es (s.step e st).2
    unfold lookedUp askedBy at *
    rw [run_cons_behind, moments_cons, List.filterMap_cons, List.flatMap_cons, List.length_append,
      hlooked, hasked]
    cases s.lookUp st e with
    | passed hx hpasses => simp [hx, hpasses.stats, hpasses.asked]
    | hit hx hc hhits =>
      simp only [hx, hhits.hits, hhits.misses, hhits.asked, List.length_cons, List.length_nil]
      omega
    | miss hx hc hmisses =>
      simp only [hx, hmisses.hits, hmisses.misses, hmisses.asked, List.length_cons,
        List.length_nil]
      omega

/-- The capacity of the cache stays what it is along a run. -/
theorem run_capacity (s : Service σ) :
    ∀ (es : List Event) (st : State σ), (s.run es st).2.cache.capacity = st.cache.capacity
  | [], _ => rfl
  | e :: es, st => by rw [run_cons_behind, s.run_capacity es, s.step_capacity]

/-- Along a run a result is held while there is room for what comes in behind it. -/
theorem resident_run (s : Service σ) {key : Blake3.Digest} {text : String} :
    ∀ (es : List Event) (st : State σ) {k : ℕ}, (∀ e ∈ es, e ≠ .clearCache) →
      k + s.storedBy es st < st.cache.capacity → st.cache.Resident key text k →
        (s.run es st).2.cache.Resident key text (k + s.storedBy es st)
  | [], _, _, _, _, h => h
  | e :: es, st, k, hclear, hroom, h => by
    have hfirst := hclear e List.mem_cons_self
    have hrest : ∀ e' ∈ es, e' ≠ .clearCache := fun e' he' => hclear e' (List.mem_cons_of_mem _ he')
    have hcapacity := s.step_capacity st e
    have hcount : s.storedBy (e :: es) st
        = s.storedBy es (s.step e st).2 + if s.stores st e then 1 else 0 := by
      unfold storedBy
      rw [moments_cons, List.countP_cons]
    rw [hcount] at hroom ⊢
    rw [run_cons_behind]
    cases hstores : s.stores st e with
    | false =>
      have hheld := resident_step_of_not_stores hfirst hstores h
      simp only [hstores, Bool.false_eq_true, if_false, Nat.add_zero] at hroom ⊢
      exact s.resident_run es _ hrest (by omega) hheld
    | true =>
      simp only [hstores, if_true] at hroom ⊢
      have hheld := resident_step_of_stores hstores (by omega) h
      have hlast := s.resident_run es _ hrest (by omega) hheld
      rwa [Nat.add_right_comm, Nat.add_assoc] at hlast

/-- Cache and registry match exactly. In any state, a request that reaches the cache makes one
look-up: on a hit the registry is not asked and no backend is called, on a miss the registry is
asked for it, once. All other events count nothing and ask nobody. So behind a run hits and misses
count the requests that reached the cache, and misses count what the registry was asked. And when a
request has missed and then succeeded, a later event with the same request is a hit with the same
text, if the cache is not cleared in between and fewer successes come in than it has places. -/
theorem misses_asked_then_held (s : Service σ) (world : σ) (es : List Event) :
    (∀ (st : State σ) (e : Event),
      (s.looksUp? st e = none → Passes s st e) ∧
      ∀ q, s.looksUp? st e = some q → (∃ text, Hits s st e text) ∨ Misses s st e q) ∧
    (let stats := (s.run es (s.start world)).2.cache.stats
     stats.hits + stats.misses = (s.lookedUp es (s.start world)).length ∧
       stats.misses = (s.askedBy es (s.start world)).length) ∧
    ∀ (e e' : Event) (between : List Event) (q : Request) (text : String),
      let st := (s.run es (s.start world)).2
      let behind := (s.step e st).2
      let st' := (s.run between behind).2
      s.looksUp? st e = some q → Misses s st e q → (s.step e st).1 = some ⟨text, none⟩ →
      (∀ b ∈ between, b ≠ .clearCache) → s.storedBy between behind < s.config.cacheCapacity →
      s.looksUp? st' e' = some q → Hits s st' e' text := by
  refine ⟨?_, ?_, ?_⟩
  · intro st e
    refine ⟨passes_of_looksUp?, ?_⟩
    intro q hx
    cases hc : st.cache.find? q.key with
    | some text => exact .inl ⟨text, hits_of_find? hx hc⟩
    | none => exact .inr (misses_of_find? hx hc).1
  · obtain ⟨hlooked, hasked⟩ := s.run_counted es (s.start world)
    exact ⟨by rw [hlooked]; exact Nat.zero_add _, by rw [hasked]; exact Nat.zero_add _⟩
  · intro e e' between q text st behind st' hx hmiss ho hclear hroom hx'
    have hcapacity : st.cache.capacity = s.config.cacheCapacity := s.run_capacity es (s.start world)
    have hheld : behind.cache.Resident q.key text 0 := hmiss.resident hx ho (by omega)
    have hbehind : behind.cache.capacity = s.config.cacheCapacity :=
      (s.step_capacity st e).trans hcapacity
    have hlater := s.resident_run between behind hclear (by omega) hheld
    exact hits_of_find? hx' hlater.find?

/-- A service without a limit for its callers and with one backend, which counts its calls. -/
def unlimited : Service ℕ where
  config := { quota := ⟨0, 0⟩ }
  registry.backends := [{
    profile := { id := "count", name := "Counter", languages := ["js"] }
    format := fun _ n => (.formatted (toString n), n + 1) }]
  registry.bindings := [("javascript", "count")]

/-- The backend of the unlimited service answers with the number of its calls. -/
theorem exists_counter {x : Submission} (hl : x.canonical = "javascript") :
    ∃ b, unlimited.registry.backend? x.canonical = some b ∧
      ∀ q n, (b.answer q n).1 = ⟨toString n, none⟩ := by
  have hscript : Language.normalize "javascript" = "javascript" := by decide +kernel
  refine ⟨unlimited.registry.backends.head (by simp [unlimited]), ?_, fun _ _ => rfl⟩
  rw [hl]
  simp [Registry.backend?, hscript, unlimited, Registry.named?, Backend.id]

/-- Short code in JavaScript reaches the cache of the unlimited service. -/
theorem unlimited_reaching? {st : State ℕ} {x : Submission} {user : Overrides}
    (hlimit : st.limiter.quota.requests = 0) (hu : x.user = .ok user)
    (hb : x.code.utf8ByteSize ≤ 1048576) (hl : x.canonical = "javascript") :
    unlimited.reaching? st x = some ⟨x.code, "javascript", Settings.resolve user "javascript"⟩ := by
  have hq : (st.charge x.caller).1 = true := congrArg Prod.fst (Limiter.check_of_unlimited hlimit)
  obtain ⟨b, hr, -⟩ := exists_counter hl
  rw [reaching?_of_passed hu hq hb hr, Submission.request, hl]

/-- A request is answered from the cache though another has come in since, when it is made by
another name of the language and with settings that resolve to the same. -/
theorem misses_asked_then_held_unlimited :
    let e : Event := .format "ann" "x" "js" {}
    let between : List Event := [.format "ben" "y" "js" {}, .advance 5]
    let e' : Event := .formatBag "ben" "x" " JavaScript" (.obj [("useTabs", .bool false)])
    let q : Request := ⟨"x", "javascript", Settings.resolve {} "javascript"⟩
    let st := unlimited.start 0
    let behind := (unlimited.step e st).2
    let st' := (unlimited.run between behind).2
    unlimited.looksUp? st e = some q ∧ Misses unlimited st e q ∧
      (unlimited.step e st).1 = some ⟨"0", none⟩ ∧ (∀ b ∈ between, b ≠ .clearCache) ∧
      unlimited.storedBy between behind < unlimited.config.cacheCapacity ∧
      unlimited.looksUp? st' e' = some q ∧ Hits unlimited st' e' "0" := by
  intro e between e' q st behind st'
  have hjs : Language.normalize "js" = "javascript" := by decide +kernel
  have hspelled : Language.normalize " JavaScript" = "javascript" := by decide +kernel
  -- The first request finds the cache empty, and the backend has not been called before.
  have hsubmission : e.submission? = some ⟨"ann", "x", "js", .ok {}⟩ := rfl
  have hx : unlimited.looksUp? st e = some q := by
    rw [looksUp?_of_submission hsubmission]
    exact unlimited_reaching? rfl rfl (by decide) hjs
  have hmiss : Misses unlimited st e q := (misses_of_find? hx rfl).1
  have houtcome : (unlimited.step e st).1 = some ⟨"0", none⟩ := by
    obtain ⟨b, hr, hanswer⟩ := exists_counter (x := ⟨"ann", "x", "js", .ok {}⟩) hjs
    have hu : (Submission.mk "ann" "x" "js" (.ok {})).user = .ok {} := rfl
    rw [step_eq_serve unlimited hsubmission, serve_asked rfl hu (by decide) hr rfl]
    exact congrArg some (hanswer _ 0)
  have hclear : ∀ b ∈ between, b ≠ .clearCache := by
    intro b hb
    simp only [between, List.mem_cons, List.not_mem_nil, or_false] at hb
    rcases hb with rfl | rfl <;> simp
  have hlength : (unlimited.moments between behind).length = 2 := rfl
  have hstored : unlimited.storedBy between behind < unlimited.config.cacheCapacity := by
    have hle : unlimited.storedBy between behind ≤ 2 := by
      rw [← hlength]
      exact List.countP_le_length
    exact Nat.lt_of_le_of_lt hle (by decide)
  -- Nobody is limited at the end either, so the last request is looked up, and it is the first one.
  -- This is said of any state equal to the last, for comparing that one would compute its digests.
  have hlimit : ∀ s, s = (unlimited.run between (unlimited.step e st).2).2 →
      s.limiter.quota.requests = 0 := by
    intro s hs
    rw [hs, ← run_cons_behind, run_quota]
    rfl
  have hsubmission' : e'.submission?
      = some ⟨"ben", "x", " JavaScript", .ok { useTabs := some false }⟩ := rfl
  have hx' : unlimited.looksUp? st' e' = some q := by
    have hsettings :
        q = ⟨"x", "javascript", Settings.resolve { useTabs := some false } "javascript"⟩ := by
      decide +kernel
    rw [looksUp?_of_submission hsubmission', hsettings]
    exact unlimited_reaching? (hlimit st' rfl) rfl (by decide) hspelled
  have hheld := (misses_asked_then_held unlimited 0 []).2.2 e e' between q "0"
  have hstart : (unlimited.run [] (unlimited.start 0)).2 = st := rfl
  rw [hstart] at hheld
  exact ⟨hx, hmiss, houtcome, hclear, hstored, hx', hheld hx hmiss houtcome hclear hstored hx'⟩

end Service

end CodeTidy
