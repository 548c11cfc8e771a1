import CodeTidy.Backend.Basic
import CodeTidy.Proofs.Memo.Cells

/-!
# Parts that are set up once

Some formatters need a part to work with, which has to be set up first and is kept in a memo. A
`Supply` says which part a request needs, how it is set up, and what becomes of the request with the
part or without it. In a session such a formatter is called again and again, the world changes in
between, and the memo may be cleared.

`Session.run_lazy` says what callers can rely on in every session. A request that needs no part has
nothing set up. The requests that need a part have it set up once each until this succeeds for the
first time, fail until then, and get this very part from then on, whatever happens to other parts.
-/

namespace CodeTidy

variable {ρ κ ι α ε ω : Type}

/-! ## Supplies and sessions -/

/-- What a formatter does with requests of type `ρ` that need parts of type `α`. -/
structure Supply (ρ κ ι α ε ω : Type) where
  /-- The key of the part that a request needs, if it needs one. -/
  key? : ρ → Option κ
  /-- The name under which the part is set up for a request. -/
  name : ρ → κ → ι
  /-- Sets the part up for a request. -/
  setUp : ρ → κ → Initializer ω ε α
  /-- The failure of a request that no part can serve. -/
  refusal : ρ → Failure
  /-- The failure of a request whose part could not be set up. -/
  fault : ρ → ε → Failure
  /-- The answer to a request with its part. -/
  use : ρ → α → Except Failure String

/-- A formatter with a memo of parts of type `α`, in a world of type `σ`. -/
abbrev Formatter (ρ κ α σ : Type) := ρ → Memo κ α → σ → Except Failure String × Memo κ α × σ

/-- The formatter of a supply. -/
def Supply.format [DecidableEq κ] (c : Supply ρ κ ι α ε ω) : Formatter ρ κ α ω :=
  fun r memo world =>
    match c.key? r with
    | none => (.error (c.refusal r), memo, world)
    | some key =>
      match memo.obtain key (c.setUp r key) world with
      | (.ok a, memo, world) => (c.use r a, memo, world)
      | (.error e, memo, world) => (.error (c.fault r e), memo, world)

/-- What was set up, under which names, and how it ended. -/
abbrev SetUps (ι ε α : Type) := List (ι × Except ε α)

/-- Sets something up and keeps a record of it next to the world. -/
def recorded (name : ι) (setUp : Initializer ω ε α) : Initializer (ω × SetUps ι ε α) ε α :=
  fun world => ((setUp world.1).1, (setUp world.1).2, world.2 ++ [(name, (setUp world.1).1)])

/-- The supply with a record of what is set up. -/
def Supply.recorded (c : Supply ρ κ ι α ε ω) : Supply ρ κ ι α ε (ω × SetUps ι ε α) where
  key? := c.key?
  name := c.name
  setUp r key := CodeTidy.recorded (c.name r key) (c.setUp r key)
  refusal := c.refusal
  fault := c.fault
  use := c.use

/-- A call of a formatter: the request, what was set up during the call, and the answer. -/
structure Visit (ρ ι α ε : Type) where
  request : ρ
  setUps : SetUps ι ε α
  answer : Except Failure String

/-- What can happen in a session: a call, a change of the world, or that the memo is cleared. -/
inductive Happening (ρ ω : Type) where
  | call (request : ρ)
  | change (f : ω → ω)
  | clear

/-- A session as it stands: the memo, the world, and the calls since the memo was cleared last. -/
structure Session (ρ κ ι α ε ω : Type) where
  memo : Memo κ α := ⟨[], List.nodup_nil⟩
  world : ω
  visits : List (Visit ρ ι α ε) := []

namespace Session

variable [DecidableEq κ]

/-- One thing happens in a session with a formatter that keeps a record. -/
def step (format : Formatter ρ κ α (ω × SetUps ι ε α)) (s : Session ρ κ ι α ε ω) :
    Happening ρ ω → Session ρ κ ι α ε ω
  | .call r =>
    let (answer, memo, world, setUps) := format r s.memo (s.world, [])
    { memo, world, visits := s.visits ++ [⟨r, setUps, answer⟩] }
  | .change f => { s with world := f s.world }
  | .clear => { s with memo := s.memo.clear, visits := [] }

/-- A session in which these things happen, one after the other. -/
def run (format : Formatter ρ κ α (ω × SetUps ι ε α)) (start : ω)
    (happenings : List (Happening ρ ω)) : Session ρ κ ι α ε ω :=
  happenings.foldl (step format) { world := start }

end Session

/-! ## What callers can rely on -/

/-- The call sets the part up in vain, once, and fails. -/
def Supply.Fails (c : Supply ρ κ ι α ε ω) (key : κ) (v : Visit ρ ι α ε) : Prop :=
  ∃ e, v.setUps = [(c.name v.request key, .error e)] ∧ v.answer = .error (c.fault v.request e)

/-- The call sets the part up, once, and is answered with it. -/
def Supply.Loads (c : Supply ρ κ ι α ε ω) (key : κ) (a : α) (v : Visit ρ ι α ε) : Prop :=
  v.setUps = [(c.name v.request key, .ok a)] ∧ v.answer = c.use v.request a

/-- The call sets nothing up and is answered with the part. -/
def Supply.Reuses (c : Supply ρ κ ι α ε ω) (a : α) (v : Visit ρ ι α ε) : Prop :=
  v.setUps = [] ∧ v.answer = c.use v.request a

/-- How the calls that need a part go, with the part that is kept behind them: all of them set it up
in vain, or some do, the next one succeeds, and those behind it get the part without further ado. -/
inductive Supply.Served (c : Supply ρ κ ι α ε ω) (key : κ) :
    List (Visit ρ ι α ε) → Option α → Prop
  | missing {visits : List (Visit ρ ι α ε)} (h : ∀ v ∈ visits, c.Fails key v) :
    c.Served key visits none
  | kept {before later : List (Visit ρ ι α ε)} {first : Visit ρ ι α ε} {a : α}
      (hbefore : ∀ v ∈ before, c.Fails key v) (hfirst : c.Loads key a first)
      (hlater : ∀ v ∈ later, c.Reuses a v) :
    c.Served key (before ++ first :: later) (some a)

/-- The calls that need a part. -/
def Supply.visitsFor [DecidableEq κ] (c : Supply ρ κ ι α ε ω) (key : κ)
    (visits : List (Visit ρ ι α ε)) : List (Visit ρ ι α ε) :=
  visits.filter fun v => c.key? v.request = some key

/-- Parts are set up when they are first needed, and each successfully once. -/
structure Session.Lazy [DecidableEq κ] (c : Supply ρ κ ι α ε ω) (s : Session ρ κ ι α ε ω) :
    Prop where
  /-- A call that needs no part sets nothing up and is refused. -/
  unneeded : ∀ v ∈ s.visits, c.key? v.request = none →
    v.setUps = [] ∧ v.answer = .error (c.refusal v.request)
  /-- The calls that need a part go as they should, and what they come to is kept. -/
  served : ∀ key, c.Served key (c.visitsFor key s.visits) (s.memo.get? key)
  /-- As many parts are counted as there are keys for which setting up has succeeded. -/
  counted : ∃ keys : Finset κ,
    (∀ key, key ∈ keys ↔ ∃ v ∈ c.visitsFor key s.visits, ∃ a, c.Loads key a v) ∧
      s.memo.count = keys.card

/-! ## One call -/

section call

variable [DecidableEq κ] {c : Supply ρ κ ι α ε ω} {key : κ}

/-- What a call can come to, with the memo in front of it and the memo behind it. -/
inductive Supply.Call (c : Supply ρ κ ι α ε ω) (memo : Memo κ α) (v : Visit ρ ι α ε) :
    Memo κ α → Prop
  /-- The request needs no part. -/
  | refused (hkey : c.key? v.request = none) (hsetUps : v.setUps = [])
      (hanswer : v.answer = .error (c.refusal v.request)) : c.Call memo v memo
  /-- The part is there. -/
  | reused {key : κ} {a : α} (hkey : c.key? v.request = some key) (hget : memo.get? key = some a)
      (h : c.Reuses a v) : c.Call memo v memo
  /-- The part is not there and can be set up. -/
  | loaded {key : κ} {a : α} {memo' : Memo κ α} (hkey : c.key? v.request = some key)
      (hget : memo.get? key = none) (h : c.Loads key a v)
      (hmemo : ∀ other, memo'.get? other = if other = key then some a else memo.get? other) :
    c.Call memo v memo'
  /-- The part is not there and cannot be set up. -/
  | failed {key : κ} {memo' : Memo κ α} (hkey : c.key? v.request = some key)
      (hget : memo.get? key = none) (h : c.Fails key v)
      (hmemo : ∀ other, memo'.get? other = memo.get? other) : c.Call memo v memo'

/-- The part that a request needs is taken from the memo, or else set up once and put on record. -/
theorem Supply.recorded_format {r : ρ} (hkey : c.key? r = some key) (memo : Memo κ α) (world : ω)
    (record : SetUps ι ε α) :
    c.recorded.format r memo (world, record) =
      match memo.get? key with
      | some a => (c.use r a, memo, world, record)
      | none =>
        match c.setUp r key world with
        | (.ok a, world) =>
          (c.use r a, (memo.enter key).fill key a, world, record ++ [(c.name r key, .ok a)])
        | (.error e, world) =>
          (.error (c.fault r e), memo.enter key, world,
            record ++ [(c.name r key, .error e)]) := by
  have hrecorded : c.recorded.key? r = some key := hkey
  unfold Supply.format
  rw [hrecorded]
  dsimp only
  cases hget : memo.get? key with
  | some a => rw [Memo.obtain_found hget]; rfl
  | none =>
    rw [Memo.obtain_missing hget]
    unfold Supply.recorded CodeTidy.recorded
    dsimp only
    rcases c.setUp r key world with ⟨_ | _, _⟩ <;> rfl

/-- A call comes to what a call can come to, and is put down behind the calls before it. -/
theorem Session.step_call (c : Supply ρ κ ι α ε ω) (s : Session ρ κ ι α ε ω) (r : ρ) :
    ∃ v memo world, c.Call s.memo v memo ∧
      s.step c.recorded.format (.call r) = ⟨memo, world, s.visits ++ [v]⟩ := by
  unfold Session.step
  dsimp only
  cases hkey : c.key? r with
  | none =>
    have hrecorded : c.recorded.key? r = none := hkey
    refine ⟨⟨r, [], .error (c.refusal r)⟩, s.memo, s.world, .refused hkey rfl rfl, ?_⟩
    unfold Supply.format
    rw [hrecorded]
    rfl
  | some key =>
    rw [Supply.recorded_format hkey]
    cases hget : s.memo.get? key with
    | some a =>
      exact ⟨⟨r, [], c.use r a⟩, s.memo, s.world, .reused hkey hget ⟨rfl, rfl⟩, rfl⟩
    | none =>
      rcases hset : c.setUp r key s.world with ⟨e | a, world⟩
      · exact ⟨⟨r, [(c.name r key, .error e)], .error (c.fault r e)⟩, _, world,
          .failed hkey hget ⟨e, rfl, rfl⟩ fun other => Memo.get?_enter s.memo key other, rfl⟩
      · refine ⟨⟨r, [(c.name r key, .ok a)], c.use r a⟩, _, world,
          .loaded hkey hget ⟨rfl, rfl⟩ fun other => ?_, rfl⟩
        rw [Memo.get?_fill (Memo.mem_enter s.memo key), Memo.get?_enter]

end call

/-! ## The calls that need a part -/

section served

variable {c : Supply ρ κ ι α ε ω} {key : κ} {visits : List (Visit ρ ι α ε)} {v : Visit ρ ι α ε}
  {a : α}

/-- One more call that needs the part. -/
theorem Supply.visitsFor_concat_self [DecidableEq κ] (h : c.key? v.request = some key) :
    c.visitsFor key (visits ++ [v]) = c.visitsFor key visits ++ [v] := by
  unfold Supply.visitsFor
  rw [List.filter_append, List.filter_cons_of_pos (by simpa using h), List.filter_nil]

/-- One more call that does not need the part. -/
theorem Supply.visitsFor_concat_other [DecidableEq κ] (h : c.key? v.request ≠ some key) :
    c.visitsFor key (visits ++ [v]) = c.visitsFor key visits := by
  unfold Supply.visitsFor
  rw [List.filter_append, List.filter_cons_of_neg (by simpa using h), List.filter_nil,
    List.append_nil]

/-- Where nothing is kept all calls have failed. -/
theorem Supply.Served.fails (h : c.Served key visits none) : ∀ v ∈ visits, c.Fails key v := by
  cases h with
  | missing h => exact h

/-- One more call fails. -/
theorem Supply.Served.concat_fails (h : c.Served key visits none) (hv : c.Fails key v) :
    c.Served key (visits ++ [v]) none := by
  refine .missing fun u hu => ?_
  rcases List.mem_append.mp hu with hu | hu
  · exact h.fails u hu
  · rwa [List.mem_singleton.mp hu]

/-- The first call succeeds. -/
theorem Supply.Served.concat_loads (h : c.Served key visits none) (hv : c.Loads key a v) :
    c.Served key (visits ++ [v]) (some a) :=
  .kept h.fails hv (List.forall_mem_nil _)

/-- One more call gets the part. -/
theorem Supply.Served.concat_reuses (h : c.Served key visits (some a)) (hv : c.Reuses a v) :
    c.Served key (visits ++ [v]) (some a) := by
  cases h with
  | kept hbefore hfirst hlater =>
    rw [List.append_assoc, List.cons_append]
    refine .kept hbefore hfirst fun u hu => ?_
    rcases List.mem_append.mp hu with hu | hu
    · exact hlater u hu
    · rwa [List.mem_singleton.mp hu]

/-- A part is kept if setting it up has succeeded. -/
theorem Supply.Served.isSome_iff {kept : Option α} (h : c.Served key visits kept) :
    kept.isSome ↔ ∃ v ∈ visits, ∃ a, c.Loads key a v := by
  cases h with
  | missing h =>
    refine iff_of_false (by simp) ?_
    rintro ⟨v, hv, a, hloads⟩
    obtain ⟨e, hfails, -⟩ := h v hv
    have heq := hloads.1.symm.trans hfails
    simp at heq
  | @kept before later first a _ hfirst _ =>
    refine iff_of_true rfl ⟨first, ?_, a, hfirst⟩
    exact List.mem_append_right _ List.mem_cons_self

end served

/-! ## Sessions -/

section session

variable [DecidableEq κ] {c : Supply ρ κ ι α ε ω} {s : Session ρ κ ι α ε ω}

/-- Where the calls go as they should the parts are counted. -/
theorem Session.Lazy.of_served
    (unneeded : ∀ v ∈ s.visits, c.key? v.request = none →
      v.setUps = [] ∧ v.answer = .error (c.refusal v.request))
    (served : ∀ key, c.Served key (c.visitsFor key s.visits) (s.memo.get? key)) : s.Lazy c := by
  refine ⟨unneeded, served, ?_⟩
  obtain ⟨keys, hkeys, hcard⟩ := Memo.count_eq_card s.memo
  exact ⟨keys, fun key => (hkeys key).trans (served key).isSome_iff, hcard⟩

/-- The calls that need a part go as they should behind a call if they did in front of it. -/
theorem Supply.Call.served {memo memo' : Memo κ α} {visits : List (Visit ρ ι α ε)}
    {v : Visit ρ ι α ε} (h : c.Call memo v memo') {key : κ}
    (hserved : c.Served key (c.visitsFor key visits) (memo.get? key)) :
    c.Served key (c.visitsFor key (visits ++ [v])) (memo'.get? key) := by
  -- a call for this part is one more among those that need it, and what it came to says how it fits;
  -- a call for another part leaves both the list and the cell alone
  by_cases hkey : c.key? v.request = some key
  · rw [Supply.visitsFor_concat_self hkey]
    cases h with
    | refused hnone => exact absurd (hnone.symm.trans hkey) nofun
    | reused hsome hget hv =>
      obtain rfl := Option.some.inj (hsome.symm.trans hkey)
      rw [hget] at hserved ⊢
      exact hserved.concat_reuses hv
    | loaded hsome hget hv hmemo =>
      obtain rfl := Option.some.inj (hsome.symm.trans hkey)
      rw [hget] at hserved
      rw [hmemo, if_pos rfl]
      exact hserved.concat_loads hv
    | failed hsome hget hv hmemo =>
      obtain rfl := Option.some.inj (hsome.symm.trans hkey)
      rw [hget] at hserved
      rw [hmemo, hget]
      exact hserved.concat_fails hv
  · rw [Supply.visitsFor_concat_other hkey]
    cases h with
    | refused | reused => exact hserved
    | loaded hsome _ _ hmemo =>
      rw [hmemo, if_neg]
      · exact hserved
      · rintro rfl
        exact hkey hsome
    | failed _ _ _ hmemo =>
      rw [hmemo]
      exact hserved

/-- A session is in order behind a call if it was in front of it. -/
theorem Supply.Call.lazy {v : Visit ρ ι α ε} {memo : Memo κ α} (h : c.Call s.memo v memo)
    (hs : s.Lazy c) (world : ω) : Session.Lazy c ⟨memo, world, s.visits ++ [v]⟩ := by
  refine .of_served ?_ fun key => h.served (hs.served key)
  intro u hu hkey
  rcases List.mem_append.mp hu with hu | hu
  · exact hs.unneeded u hu hkey
  obtain rfl := List.mem_singleton.mp hu
  cases h with
  | refused _ hsetUps hanswer => exact ⟨hsetUps, hanswer⟩
  | reused hsome | loaded hsome | failed hsome =>
    rw [hsome] at hkey
    cases hkey

/-- A session stays in order whatever happens in it. -/
theorem Session.Lazy.step (h : s.Lazy c) (happening : Happening ρ ω) :
    (s.step c.recorded.format happening).Lazy c := by
  cases happening with
  | call r =>
    obtain ⟨v, memo, world, hcall, hstep⟩ := s.step_call c r
    rw [hstep]
    exact hcall.lazy h world
  | change f => exact .of_served h.unneeded h.served
  | clear =>
    exact .of_served (List.forall_mem_nil _) fun key => .missing (List.forall_mem_nil _)

/-- In every session parts are set up when they are first needed, and each successfully once. -/
theorem Session.run_lazy (c : Supply ρ κ ι α ε ω) (start : ω)
    (happenings : List (Happening ρ ω)) : (run c.recorded.format start happenings).Lazy c := by
  unfold run
  -- from the end, because a session is told by what it was before the last thing happened
  induction happenings using List.reverseRecOn with
  | nil => exact .of_served (List.forall_mem_nil _) fun key => .missing (List.forall_mem_nil _)
  | append_singleton happenings happening ih =>
    rw [List.foldl_concat]
    exact ih.step happening

end session

end CodeTidy
