import CodeTidy.Proofs.Limiter.Isolation
import CodeTidy.Proofs.Service.Failing

/-!
# Which stage a failure comes from

Each stage says by itself whether it fails a submission. In the order in which the stages are meant
to run, the size of the code and the language come before the settings, and a submission fails with
the failure of the first stage that fails. For settings that can be read that is so. A malformed bag
is found out when it is read, which is right behind the quota, so it hides that the code is too
long or that the language has no backend. `fails_in_order` says that this is the only exception.
-/

namespace CodeTidy

variable {σ : Type}

namespace Service

/-- The stages at which a submission may fail. -/
inductive Stage where
  | quota
  | size
  | language
  | settings
  | backend

namespace Stage

/-- The order in which the stages are meant to run. -/
def meant : List Stage := [.quota, .size, .language, .settings, .backend]

/-- The order in which they run. -/
def taken : List Stage := [.quota, .settings, .size, .language, .backend]

/-- The failure that a stage has for a submission, whatever the other stages make of it. The
backend is asked if there is one and the result is not kept. -/
def failure? (s : Service σ) (st : State σ) (x : Submission) : Stage → Option Failure
  | .quota =>
    if (st.charge x.caller).1 then none else some (.rateLimited st.limiter.quota)
  | .size =>
    if s.config.maxInputBytes < x.code.utf8ByteSize then
      some (.oversized x.code.utf8ByteSize s.config.maxInputBytes)
    else none
  | .language =>
    match s.registry.backend? x.canonical with
    | some _ => none
    | none => some (.unsupported x.canonical)
  | .settings =>
    match x.user with
    | .ok _ => none
    | .error e => some (.settings e)
  | .backend =>
    match x.user, s.registry.backend? x.canonical with
    | .ok user, some b =>
      match st.cache.find? (x.request user).key with
      | some _ => none
      | none => (b.answer (x.request user) st.world).1.failure
    | _, _ => none

end Stage

/-- The failure of the first stage that fails, in an order of the stages. -/
def firstFailure? (s : Service σ) (st : State σ) (x : Submission) (order : List Stage) :
    Option Failure :=
  order.findSome? (Stage.failure? s st x)

/-- The settings bag of a submission within its quota is malformed, and a stage that is meant to run
before the settings fails as well. -/
structure Misordered (s : Service σ) (st : State σ) (x : Submission) : Prop where
  admitted : (st.charge x.caller).1 = true
  malformed : ∃ e, x.user = .error e
  earlier : s.config.maxInputBytes < x.code.utf8ByteSize ∨
    s.registry.backend? x.canonical = none

section

variable {s : Service σ} {st st' : State σ} {x : Submission} {o : Outcome} {calls : List (Call σ)}

/-- A submission fails with the failure of the first stage that fails, in the order in which the
stages run. -/
theorem Handling.failure_eq (h : Handling s st x o st' calls) :
    o.failure = s.firstFailure? st x Stage.taken := by
  unfold firstFailure? Stage.taken
  cases h with
  | limited hq =>
    have hquota : (st.charge x.caller).2.limiter.quota = st.limiter.quota :=
      Limiter.check_quota st.limiter st.now x.caller
    simp [Stage.failure?, hq, hquota, Outcome.failed]
  | malformed hq hu => simp [Stage.failure?, hq, hu, Outcome.failed]
  | oversized hq hu hb => simp [Stage.failure?, hq, hu, hb, Outcome.failed]
  | unsupported hq hu hb hr =>
    simp [Stage.failure?, hq, hu, Nat.not_lt.mpr hb, hr, Outcome.failed]
  | hit hq hu hb hr hc => simp [Stage.failure?, hq, hu, Nat.not_lt.mpr hb, hr, hc]
  | asked hq hu hb hr hc => simp [Stage.failure?, hq, hu, Nat.not_lt.mpr hb, hr, hc]

/-- Unless a malformed bag hides a stage, the two orders have one first failure. -/
theorem firstFailure?_taken (h : ¬Misordered s st x) :
    s.firstFailure? st x Stage.taken = s.firstFailure? st x Stage.meant := by
  unfold firstFailure? Stage.taken Stage.meant
  cases hq : (st.charge x.caller).1 with
  | false => simp [Stage.failure?, hq]
  | true =>
    cases hu : x.user with
    | ok user =>
      -- The settings do not fail, so it makes no difference when they are looked at.
      have hsettings : Stage.failure? s st x .settings = none := by simp [Stage.failure?, hu]
      simp only [List.findSome?_cons, hsettings]
    | error e =>
      -- The settings fail, so the stages that are meant to run before them do not.
      have hsize : ¬s.config.maxInputBytes < x.code.utf8ByteSize :=
        fun hlong => h ⟨hq, ⟨e, hu⟩, .inl hlong⟩
      have hbound : s.registry.backend? x.canonical ≠ none :=
        fun hnone => h ⟨hq, ⟨e, hu⟩, .inr hnone⟩
      obtain ⟨b, hb⟩ := Option.ne_none_iff_exists'.mp hbound
      simp [Stage.failure?, hq, hu, hsize, hb]

/-- A malformed bag that hides a stage is what the submission fails with. -/
theorem Misordered.taken (h : Misordered s st x) :
    ∃ e, x.user = .error e ∧ s.firstFailure? st x Stage.taken = some (.settings e) := by
  obtain ⟨hq, ⟨e, hu⟩, -⟩ := h
  exact ⟨e, hu, by simp [firstFailure?, Stage.taken, Stage.failure?, hq, hu]⟩

/-- A submission whose bag hides a stage is meant to fail for its size or its language. -/
theorem Misordered.meant (h : Misordered s st x) :
    s.firstFailure? st x Stage.meant = some (
      if s.config.maxInputBytes < x.code.utf8ByteSize then
        .oversized x.code.utf8ByteSize s.config.maxInputBytes
      else .unsupported x.canonical) := by
  obtain ⟨hq, -, hearlier⟩ := h
  unfold firstFailure? Stage.meant
  by_cases hlong : s.config.maxInputBytes < x.code.utf8ByteSize
  · simp [Stage.failure?, hq, hlong]
  · have hr := hearlier.resolve_left hlong
    simp [Stage.failure?, hq, hlong, hr]

end

/-- A submission fails with the failure of the first stage that fails, in the order in which the
stages are meant to run, by either entry point and in any state, unless its settings bag is
malformed and hides a stage. Then it fails for its settings, where it is meant to fail for its size
or else for its language. -/
theorem fails_in_order (s : Service σ) (st : State σ) (e : Event) (x : Submission)
    (hx : e.submission? = some x) :
    ∃ o, (s.step e st).1 = some o ∧ o.failure = s.firstFailure? st x Stage.taken ∧
      (¬Misordered s st x → o.failure = s.firstFailure? st x Stage.meant) ∧
      (Misordered s st x → o.failure.map Failure.kind = some .invalidInput ∧
        (s.firstFailure? st x Stage.meant).map Failure.kind = some (
          if s.config.maxInputBytes < x.code.utf8ByteSize then .oversizedInput
          else .unsupportedLanguage)) := by
  obtain ⟨o, st', calls, hstep, -, hhandling⟩ := s.step_handling hx st
  have htaken := hhandling.failure_eq
  refine ⟨o, by rw [hstep], htaken, ?_, ?_⟩
  · intro hordered
    rw [htaken, firstFailure?_taken hordered]
  · intro hmisordered
    obtain ⟨e, -, hsettings⟩ := hmisordered.taken
    rw [htaken, hsettings, hmisordered.meant]
    refine ⟨rfl, ?_⟩
    split_ifs <;> rfl

/-- A service that accepts no code, with a backend for JavaScript. -/
def refusing : Service Unit := { crashing with config := { maxInputBytes := 0 } }

/-- A request with readable settings that is too long and for an unbound language is too long. -/
theorem fails_in_order_refusing :
    let e : Event := .format "ann" "x" "cobol" {}
    let x : Submission := ⟨"ann", "x", "cobol", .ok {}⟩
    e.submission? = some x ∧ ¬Misordered refusing (refusing.start ()) x ∧
      ∃ o, (refusing.step e (refusing.start ())).1 = some o ∧
        o.failure.map Failure.kind = some .oversizedInput := by
  intro e x
  have hx : e.submission? = some x := rfl
  have hordered : ¬Misordered refusing (refusing.start ()) x := by
    rintro ⟨-, ⟨_, he⟩, -⟩
    cases he
  obtain ⟨o, ho, -, hfails, -⟩ := fails_in_order refusing (refusing.start ()) e x hx
  refine ⟨hx, hordered, o, ho, ?_⟩
  rw [hfails hordered]
  rfl

/-- A malformed bag hides that the code is too long and that the language has no backend. The first
and the third request are within the quota and fail for their settings. With settings that can be
read they fail for the size and for the language, as they are meant to. -/
theorem malformed_hides :
    let kindOf (s : Service Unit) (e : Event) : Option Failure.Kind :=
      (s.step e (s.start ())).1.bind fun o => o.failure.map Failure.kind
    kindOf refusing (.formatBag "ann" "x" "js" (.bool true)) = some .invalidInput ∧
      kindOf refusing (.formatBag "ann" "x" "js" .null) = some .oversizedInput ∧
      kindOf crashing (.formatBag "ann" "x" "cobol" (.bool true)) = some .invalidInput ∧
      kindOf crashing (.formatBag "ann" "x" "cobol" .null) = some .unsupportedLanguage := by
  intro kindOf
  have hcobol : Language.normalize "cobol" = "cobol" := by decide +kernel
  have hunbound : crashing.registry.backend? "cobol" = none := by
    simp [Registry.backend?, hcobol, crashing]
  refine ⟨rfl, rfl, rfl, ?_⟩
  have hr : crashing.registry.backend? (Submission.canonical ⟨"ann", "x", "cobol", .ok {}⟩)
      = none := by
    unfold Submission.canonical
    rw [hcobol]
    exact hunbound
  have hbag : (Event.formatBag "ann" "x" "cobol" .null).submission?
      = some ⟨"ann", "x", "cobol", .ok {}⟩ := rfl
  have hu : (Submission.mk "ann" "x" "cobol" (.ok {})).user = .ok {} := rfl
  show (crashing.step (.formatBag "ann" "x" "cobol" .null) (crashing.start ())).1.bind _ = _
  rw [step_eq_serve crashing hbag, serve_unsupported (by decide) hu (by decide) hr]
  rfl

end Service

end CodeTidy
