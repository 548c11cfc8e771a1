import CodeTidy.Proofs.Limiter.Isolation
import CodeTidy.Proofs.Service.Failing
import CodeTidy.Proofs.Service.Transparency

/-!
# What is asked does not matter to the quota

Every submission is charged to its caller exactly once, before any other stage, and the windows
change in no other way. So the rejections of a run are the verdicts of the limiter on the callers
and times of its submissions, and two runs that agree on these have the same submissions rejected:
the codes, the languages, the settings, the backends, the cache and its clearing do not show.
-/

namespace CodeTidy

variable {σ τ : Type}

namespace Service

/-- How much time passes with an event. -/
def Event.elapsed : Event → ℕ
  | .format .. | .formatBag .. | .clearCache => 0
  | .advance ms => ms

/-- The check of the quota that an event calls for at a time, if it is a submission. -/
def Event.check? (now : ℕ) (e : Event) : Option Limiter.Check :=
  e.submission?.map fun x => ⟨now, x.caller⟩

/-- The checks of the quota that the events of a run call for: whose submissions they are and when
they come. -/
def checks : List Event → ℕ → List Limiter.Check
  | [], _ => []
  | e :: es, now => (e.check? now).toList ++ checks es (now + e.elapsed)

/-- Was a submission rejected for the quota of its caller? A backend may give a failure of the same
kind, but then it was called. -/
def Happening.limited? (h : Happening σ) : Option Bool :=
  h.outcome.map fun o => o.failure.map Failure.kind == some .rateLimited && h.calls.isEmpty

/-- Which submissions of a run are rejected for the quota, in their order. -/
def rejections (s : Service σ) (es : List Event) (st : State σ) : List Bool :=
  (s.trace es st).filterMap Happening.limited?

/-- A submission is charged once, before any other stage: the windows are those behind one check,
and on a refusal nothing else changes and nobody is called. -/
structure ChargedFirst (s : Service σ) (st : State σ) (e : Event) (x : Submission) : Prop where
  /-- The windows behind the event are those behind one check, whatever becomes of the submission. -/
  charged : (s.step e st).2.limiter = (st.limiter.check st.now x.caller).2
  /-- The submission is rejected if and only if the check refuses it. -/
  rejected : (s.happening e st).limited? = some !(st.limiter.check st.now x.caller).1
  /-- A submission that the check refuses goes no further. -/
  refused : (st.limiter.check st.now x.caller).1 = false →
    s.step e st = (some (.failed x.code (.rateLimited st.limiter.quota)),
      { st with limiter := (st.limiter.check st.now x.caller).2 }) ∧ s.calls e st = []

/-! ## One event -/

/-- A submission is rejected if and only if the check refuses it. -/
theorem Handling.limited? {s : Service σ} {st st' : State σ} {x : Submission} {o : Outcome}
    {calls : List (Call σ)} (h : Handling s st x o st' calls) (e : Event) :
    (Happening.mk e (some o) calls).limited? = some !(st.limiter.check st.now x.caller).1 := by
  have hcheck : (st.charge x.caller).1 = (st.limiter.check st.now x.caller).1 := rfl
  rw [← hcheck]
  cases h with
  | limited hq =>
    rw [hq]
    rfl
  | malformed hq | oversized hq | unsupported hq | hit hq =>
    rw [hq]
    rfl
  | @asked user b hq hu hb hr hc =>
    rw [hq]
    rcases hanswer : (b.answer (x.request user) st.world).1 with ⟨text, _ | f⟩
    · rfl
    · -- A failure of this kind is an answer of the backend, which was called then.
      by_cases hkind : f.kind = .rateLimited
      · obtain ⟨-, hearly⟩ := Backend.answer_failed hanswer
        obtain ⟨c, hc, -⟩ := hearly (.inl hkind)
        have hcalled : (b.callsOf (x.request user) st.world).isEmpty = false :=
          List.isEmpty_eq_false_iff_exists_mem.mpr ⟨c, hc⟩
        simp [Happening.limited?, hcalled]
      · simp [Happening.limited?, hkind]

/-- Every submission is charged once and first. -/
theorem chargedFirst (s : Service σ) {e : Event} {x : Submission} (hx : e.submission? = some x)
    (st : State σ) : ChargedFirst s st e x := by
  obtain ⟨o, st', calls, hstep, hcalls, hhandling⟩ := s.step_handling hx st
  refine ⟨?_, ?_, ?_⟩
  · rw [hstep]
    exact hhandling.limiter_now.1
  · unfold happening
    rw [hstep, hcalls]
    exact hhandling.limited? e
  · intro hrefused
    have hq : (st.charge x.caller).1 = false := hrefused
    refine ⟨?_, ?_⟩
    · rw [step_eq_serve s hx, serve_limited hq]
      have hquota : (st.charge x.caller).2.limiter.quota = st.limiter.quota :=
        Limiter.check_quota st.limiter st.now x.caller
      rw [hquota]
      rfl
    · rw [hcalls]
      exact (hhandling.refused (.inl hq)).2

/-- Time passes with an event as much as the event says. -/
theorem step_now (s : Service σ) (e : Event) (st : State σ) :
    (s.step e st).2.now = st.now + e.elapsed := by
  cases hx : e.submission? with
  | some x =>
    obtain ⟨o, st', calls, hstep, -, hhandling⟩ := s.step_handling hx st
    rw [hstep]
    have helapsed : e.elapsed = 0 := by
      cases e with
      | format | formatBag | clearCache => rfl
      | advance ms => cases hx
    rw [helapsed]
    exact hhandling.limiter_now.2
  | none =>
    obtain ⟨ms, rfl⟩ | rfl := Event.idle_cases hx <;> rfl

/-- An event that is no submission leaves the windows alone and is not rejected. -/
theorem step_idle (s : Service σ) {e : Event} (hx : e.submission? = none) (st : State σ) :
    (s.step e st).2.limiter = st.limiter ∧ (s.happening e st).limited? = none := by
  obtain ⟨ms, rfl⟩ | rfl := Event.idle_cases hx <;> exact ⟨rfl, rfl⟩

/-! ## Runs -/

/-- The check of the first event comes first. -/
theorem checks_cons (e : Event) (es : List Event) (now : ℕ) :
    checks (e :: es) now = (e.check? now).toList ++ checks es (now + e.elapsed) := rfl

/-- Behind the first event the run goes on. -/
theorem run_cons_behind (s : Service σ) (e : Event) (es : List Event) (st : State σ) :
    (s.run (e :: es) st).2 = (s.run es (s.step e st).2).2 := rfl

/-- The rejection of the first event comes first. -/
theorem rejections_cons (s : Service σ) (e : Event) (es : List Event) (st : State σ) :
    s.rejections (e :: es) st
      = (s.happening e st).limited?.toList ++ s.rejections es (s.step e st).2 := by
  unfold rejections
  rw [trace_cons, List.filterMap_cons]
  cases (s.happening e st).limited? <;> rfl

/-- The rejections of a run are the verdicts of the limiter on the callers and times of the
submissions, and the windows behind the run are those that these checks leave. -/
theorem rejections_eq (s : Service σ) :
    ∀ (es : List Event) (st : State σ),
      s.rejections es st
          = (Limiter.run Limiter.check st.limiter (checks es st.now)).map (!·.admitted) ∧
        (s.run es st).2.limiter
          = (checks es st.now).foldl (fun l c => (l.check c.now c.caller).2) st.limiter
  | [], _ => ⟨rfl, rfl⟩
  | e :: es, st => by
    obtain ⟨hrest, hbehind⟩ := s.rejections_eq es (s.step e st).2
    rw [s.step_now] at hrest hbehind
    rw [rejections_cons, hrest, run_cons_behind, hbehind, checks_cons]
    unfold Event.check?
    cases hx : e.submission? with
    | some x =>
      obtain ⟨hcharged, hrejected, -⟩ := s.chargedFirst hx st
      rw [hcharged, hrejected]
      exact ⟨rfl, rfl⟩
    | none =>
      obtain ⟨hlimiter, hlimited⟩ := s.step_idle hx st
      rw [hlimiter, hlimited]
      exact ⟨rfl, rfl⟩

/-- The quota stays what it is along a run. -/
theorem run_quota (s : Service σ) (es : List Event) (st : State σ) :
    (s.run es st).2.limiter.quota = st.limiter.quota := by
  rw [(s.rejections_eq es st).2]
  generalize st.limiter = l
  induction checks es st.now generalizing l with
  | nil => rfl
  | cons c cs ih => rw [List.foldl_cons, ih, Limiter.check_quota]

/-- The quota is blind to what is asked. Two runs of two services with one quota, whose submissions
come from the same callers at the same times, have the same submissions rejected and leave the same
windows, whatever is asked of them and whatever the services do with it. The rejections are those
of the limiter alone, which checks each submission once, and every submission in any state is
charged once and before any other stage. -/
theorem quota_blind (s : Service σ) (s' : Service τ) (es es' : List Event) (world : σ) (world' : τ)
    (hquota : s.config.quota = s'.config.quota) (hsame : checks es 0 = checks es' 0) :
    s.rejections es (s.start world) = s'.rejections es' (s'.start world') ∧
    (s.run es (s.start world)).2.limiter = (s'.run es' (s'.start world')).2.limiter ∧
    s.rejections es (s.start world)
      = (Limiter.run Limiter.check { quota := s.config.quota } (checks es 0)).map (!·.admitted) ∧
    ∀ (st : State σ) (e : Event) (x : Submission), e.submission? = some x →
      ChargedFirst s st e x := by
  obtain ⟨hrejections, hlimiter⟩ := s.rejections_eq es (s.start world)
  obtain ⟨hrejections', hlimiter'⟩ := s'.rejections_eq es' (s'.start world')
  have hfresh : (s.start world).limiter = (s'.start world').limiter := by
    unfold start
    rw [hquota]
  have hnow : checks es (s.start world).now = checks es' (s'.start world').now := hsame
  refine ⟨?_, ?_, hrejections, fun st e x hx => s.chargedFirst hx st⟩
  · rw [hrejections, hrejections', hfresh, hnow]
  · rw [hlimiter, hlimiter', hfresh, hnow]

/-- A service whose backend breaks down and one without backends, which accepts no code at all,
reject the same requests: one of two in a window, well-formed or not. -/
theorem quota_blind_crashing :
    let quota : Quota := ⟨1, 10⟩
    let s : Service Unit := { crashing with config := { quota } }
    let s' : Service ℕ := ⟨{ maxInputBytes := 0, cacheCapacity := 0, quota }, {}⟩
    let es : List Event := [.format "ann" "x" "js" {}, .format "ann" "x" "js" {}, .advance 11,
      .format "ann" "y" "css" {}]
    let es' : List Event := [.formatBag "ann" "{}" "json" (.arr []), .clearCache,
      .format "ann" "" "cobol" {}, .advance 5, .advance 6, .formatBag "ann" "z" "js" .null]
    s.config.quota = s'.config.quota ∧ checks es 0 = checks es' 0 ∧
      s.rejections es (s.start ()) = [false, true, false] ∧
      s'.rejections es' (s'.start 0) = [false, true, false] := by
  intro quota s s' es es'
  have hsame : checks es 0 = checks es' 0 := rfl
  obtain ⟨hblind, -, hverdicts, -⟩ := quota_blind s s' es es' () 0 rfl hsame
  have hrejected : s.rejections es (s.start ()) = [false, true, false] := by
    rw [hverdicts]
    rfl
  exact ⟨rfl, hsame, hrejected, hblind.symm.trans hrejected⟩

end Service

end CodeTidy
