import CodeTidy.Failure
import CodeTidy.Proofs.Limiter.Windows

/-!
# Callers do not see each other

`callers_isolated` compares two runs: what a caller is told when others make requests as well, and
what it is told by a limiter of its own that never prunes. The two agree, whoever else asks and how
often, as long as time does not run backwards.

The proof carries a relation between the two limiters. They need not hold the same window for the
caller, because pruning may have dropped one that is over. But the request that comes next falls in
the same window either way, and so does every later one.
-/

namespace CodeTidy.Limiter

open Table

/-- A request that is checked: whose it is and when it comes. -/
structure Check where
  now : ℕ
  caller : String

/-- What comes of a check: the answer, and the limiter behind it. -/
structure Verdict where
  check : Check
  admitted : Bool
  behind : Limiter

/-- The answer as the caller gets it. -/
def Verdict.result (v : Verdict) : Except Failure Unit :=
  if v.admitted then .ok () else .error (.rateLimited v.behind.quota)

/-- The verdicts of a run of checks, in their order. Each check is made on the limiter that the one
in front of it leaves. -/
def run (judge : Limiter → ℕ → String → Bool × Limiter) : Limiter → List Check → List Verdict
  | _, [] => []
  | l, c :: cs =>
    let (admitted, behind) := judge l c.now c.caller
    ⟨c, admitted, behind⟩ :: run judge behind cs

/-- A run makes its first check and goes on behind it. -/
theorem run_cons (judge : Limiter → ℕ → String → Bool × Limiter) (l : Limiter) (c : Check)
    (cs : List Check) :
    run judge l (c :: cs) =
      ⟨c, (judge l c.now c.caller).1, (judge l c.now c.caller).2⟩ ::
        run judge (judge l c.now c.caller).2 cs := rfl

/-- Counts a request in its window, unless the window is full. -/
def counted (q : Quota) (w : Window) : Bool × Window :=
  if q.requests ≤ w.admitted then (false, w) else (true, { w with admitted := w.admitted + 1 })

/-- Counts a request of a caller and never forgets a window. -/
def checkUnpruned (l : Limiter) (now : ℕ) (caller : String) : Bool × Limiter :=
  if l.quota.requests = 0 then (true, l)
  else
    let (admitted, w) := counted l.quota (windowAt l.quota now (l.windows.lookup caller))
    (admitted, { l with windows := setWindow caller w l.windows })

/-! ## One check -/

section step

variable {l m : Limiter} {now : ℕ} {caller : String}

/-- Without a limit every request is admitted. -/
theorem check_of_unlimited (h : l.quota.requests = 0) : l.check now caller = (true, l) := by
  unfold check
  rw [if_pos h]

/-- Without a limit nothing is counted. -/
theorem checkUnpruned_of_unlimited (h : l.quota.requests = 0) :
    l.checkUnpruned now caller = (true, l) := by
  unfold checkUnpruned
  rw [if_pos h]

/-- The window in which the next request of a caller falls. -/
def nextWindow (l : Limiter) (now : ℕ) (caller : String) : Window :=
  windowAt l.quota now (l.windows.lookup caller)

/-- With a limit, a request is counted in its window and the window is kept. -/
theorem checkUnpruned_of_limited (h : l.quota.requests ≠ 0) :
    l.checkUnpruned now caller = ((counted l.quota (l.nextWindow now caller)).1,
      { l with
        windows := setWindow caller (counted l.quota (l.nextWindow now caller)).2 l.windows }) := by
  unfold checkUnpruned
  rw [if_neg h]
  rfl

/-- With a limit, the windows that are over are dropped first if there are many. They make no
difference to the window in which the request falls. -/
theorem check_of_limited (hl : Distinct l.windows) (h : l.quota.requests ≠ 0) :
    l.check now caller = ((counted l.quota (l.nextWindow now caller)).1,
      { l with
        windows := setWindow caller (counted l.quota (l.nextWindow now caller)).2 (l.pruned now) })
    := by
  have hwindow : windowAt l.quota now ((l.pruned now).lookup caller) = l.nextWindow now caller :=
    windowAt_pruned hl Nat.le.refl caller
  unfold check counted
  rw [if_neg h]
  dsimp only
  rw [hwindow]
  split_ifs <;> rfl

/-- A check leaves the quota as it is. -/
theorem check_quota (l : Limiter) (now : ℕ) (caller : String) :
    (l.check now caller).2.quota = l.quota := by
  unfold check
  dsimp only
  split_ifs <;> rfl

/-- A check gives no caller a second window. -/
theorem distinct_check (hl : Distinct l.windows) (now : ℕ) (caller : String) :
    Distinct (l.check now caller).2.windows := by
  by_cases h : l.quota.requests = 0
  · rw [check_of_unlimited h]
    exact hl
  · rw [check_of_limited hl h]
    exact distinct_setWindow (distinct_pruned hl now) caller _

/-- Counting a request does not move its window. -/
theorem counted_opened (q : Quota) (w : Window) : (counted q w).2.opened = w.opened := by
  unfold counted
  split_ifs <;> rfl

/-- Behind a check few callers are tracked, or all windows are open. -/
theorem check_tracked_or_open (hl : Distinct l.windows) (h : l.quota.requests ≠ 0) (now : ℕ)
    (caller : String) :
    (l.check now caller).2.tracked ≤ pruneAbove + 1 ∨
      ∀ entry ∈ (l.check now caller).2.windows, isOpen l.quota now entry.2 = true := by
  rw [check_of_limited hl h]
  unfold tracked pruned
  dsimp only
  split_ifs with hmany
  · -- What is left after pruning is open, and so is the window in which the request falls.
    refine .inr fun entry hentry => ?_
    rcases mem_setWindow hentry with rfl | hold
    · unfold isOpen
      rw [counted_opened]
      exact isOpen_windowAt l.quota now (l.windows.lookup caller)
    · exact (List.mem_filter.mp hold).2
  · have hlength := length_setWindow_le caller
      (counted l.quota (l.nextWindow now caller)).2 l.windows
    exact .inl (by omega)

end step

/-! ## Two limiters -/

/-- From a time on, the requests of a caller fall in the same windows of two limiters. -/
structure Alike (caller : String) (since : ℕ) (l m : Limiter) : Prop where
  quota : m.quota = l.quota
  window : ∀ now, since ≤ now → m.nextWindow now caller = l.nextWindow now caller

section run

variable {l m : Limiter} {since now : ℕ} {caller : String}

/-- A request of another caller makes no difference. -/
theorem Alike.other (h : Alike caller since l m) (hl : Distinct l.windows) (hle : since ≤ now)
    {other : String} (hne : other ≠ caller) : Alike caller now (l.check now other).2 m := by
  refine ⟨?_, ?_⟩
  · rw [check_quota]
    exact h.quota
  · intro later hlater
    rw [h.window later (Nat.le_trans hle hlater)]
    by_cases hlimit : l.quota.requests = 0
    · rw [check_of_unlimited hlimit]
    · rw [check_of_limited hl hlimit]
      unfold nextWindow
      dsimp only
      rw [lookup_setWindow, if_neg hne.symm, windowAt_pruned hl hlater]

/-- A request of the caller is answered alike, and makes the same difference. -/
theorem Alike.own (h : Alike caller since l m) (hl : Distinct l.windows) (hle : since ≤ now) :
    (m.checkUnpruned now caller).1 = (l.check now caller).1 ∧
      Alike caller now (l.check now caller).2 (m.checkUnpruned now caller).2 := by
  by_cases hlimit : l.quota.requests = 0
  · rw [check_of_unlimited hlimit, checkUnpruned_of_unlimited (by rw [h.quota, hlimit])]
    exact ⟨rfl, h.quota, fun later hlater => h.window later (Nat.le_trans hle hlater)⟩
  · have hlimit' : m.quota.requests ≠ 0 := by rwa [h.quota]
    rw [check_of_limited hl hlimit, checkUnpruned_of_limited hlimit', h.quota, h.window now hle]
    refine ⟨rfl, rfl, ?_⟩
    intro later _
    unfold nextWindow
    dsimp only
    rw [lookup_setWindow, lookup_setWindow, if_pos rfl, if_pos rfl]

/-- The answers that a caller gets in a run are those of a limiter that treats it alike and sees
nobody else. -/
theorem Alike.run {checks : List Check} (h : Alike caller since l m) (hl : Distinct l.windows)
    (hchecks : checks.Pairwise fun c d => c.now ≤ d.now) (hsince : ∀ c ∈ checks, since ≤ c.now) :
    ((run check l checks).filter fun v => v.check.caller == caller).map Verdict.result =
      (run checkUnpruned m (checks.filter fun c => c.caller == caller)).map Verdict.result := by
  -- A check of the caller is made by both limiters, one of another caller by the first only. Either
  -- way they are alike behind it, from its time on.
  induction checks generalizing l m since with
  | nil => rfl
  | cons c cs ih =>
    obtain ⟨hfirst, hrest⟩ := List.pairwise_cons.mp hchecks
    have hle := hsince c List.mem_cons_self
    rw [run_cons]
    by_cases hc : c.caller = caller
    · rw [List.filter_cons_of_pos (by simpa using hc), List.filter_cons_of_pos (by simpa using hc)]
      subst hc
      obtain ⟨hanswer, hbehind⟩ := h.own hl hle
      have hrun := ih hbehind (distinct_check hl c.now c.caller) hrest hfirst
      rw [run_cons, List.map_cons, List.map_cons, hrun, hanswer]
      unfold Verdict.result
      dsimp only
      rw [hbehind.quota]
    · rw [List.filter_cons_of_neg (by simpa using hc), List.filter_cons_of_neg (by simpa using hc)]
      exact ih (h.other hl hle hc) (distinct_check hl c.now c.caller) hrest hfirst

/-- Every verdict of a run comes of one check, on a limiter with the quota of the first. -/
theorem exists_check_of_mem_run {checks : List Check} (hl : Distinct l.windows) {v : Verdict}
    (hv : v ∈ run check l checks) :
    ∃ before : Limiter, before.quota = l.quota ∧ Distinct before.windows ∧
      v.behind = (before.check v.check.now v.check.caller).2 := by
  induction checks generalizing l with
  | nil => exact absurd hv List.not_mem_nil
  | cons c cs ih =>
    rw [run_cons] at hv
    rcases List.mem_cons.mp hv with rfl | hrest
    · exact ⟨l, rfl, hl, rfl⟩
    · obtain ⟨before, hquota, hbefore, hbehind⟩ := ih (distinct_check hl c.now c.caller) hrest
      exact ⟨before, hquota.trans (check_quota l c.now c.caller), hbefore, hbehind⟩

end run

/-- Callers do not see each other, and pruning is not seen by anybody. Whatever others ask, and at
whatever times, the answers that a caller gets are those of a limiter that sees its requests only
and never prunes. And behind every check there are at most 1025 callers with a window, or all
windows are still open at that moment. -/
theorem callers_isolated (q : Quota) (checks : List Check)
    (hchecks : checks.Pairwise fun c d => c.now ≤ d.now) :
    (∀ caller, ((run check { quota := q } checks).filter fun v => v.check.caller == caller).map
        Verdict.result =
      (run checkUnpruned { quota := q } (checks.filter fun c => c.caller == caller)).map
        Verdict.result) ∧
    (q.requests ≠ 0 → ∀ v ∈ run check { quota := q } checks,
      v.behind.tracked ≤ 1025 ∨
        ∀ entry ∈ v.behind.windows, isOpen q v.check.now entry.2 = true) := by
  have hfresh : Distinct ({ quota := q } : Limiter).windows := List.nodup_nil
  refine ⟨?_, ?_⟩
  · intro caller
    have halike : Alike caller 0 { quota := q } { quota := q } := ⟨rfl, fun _ _ => rfl⟩
    exact halike.run hfresh hchecks fun c _ => Nat.zero_le c.now
  · intro hlimit v hv
    obtain ⟨before, hquota, hbefore, hbehind⟩ := exists_check_of_mem_run hfresh hv
    have hbound := check_tracked_or_open hbefore (by rwa [hquota]) v.check.now v.check.caller
    rw [← hbehind, hquota] at hbound
    exact hbound

/-- A caller with a quota of one request is told the same whether or not another caller asks in
between: its window is open at its end and over behind it. -/
theorem callers_isolated_two :
    let checks : List Check := [⟨0, "ann"⟩, ⟨3, "bob"⟩, ⟨10, "ann"⟩, ⟨11, "bob"⟩, ⟨11, "ann"⟩]
    (checks.Pairwise fun c d => c.now ≤ d.now) ∧
      ((run check { quota := ⟨1, 10⟩ } checks).filter fun v => v.check.caller == "ann").map
        Verdict.result = [.ok (), .error (.rateLimited ⟨1, 10⟩), .ok ()] ∧
      ∀ v ∈ run check { quota := ⟨1, 10⟩ } checks, v.behind.tracked ≤ 1025 ∨
        ∀ entry ∈ v.behind.windows, isOpen ⟨1, 10⟩ v.check.now entry.2 = true := by
  have hchecks : ([⟨0, "ann"⟩, ⟨3, "bob"⟩, ⟨10, "ann"⟩, ⟨11, "bob"⟩, ⟨11, "ann"⟩] :
      List Check).Pairwise fun c d => c.now ≤ d.now := by simp
  obtain ⟨hisolated, htracked⟩ := callers_isolated ⟨1, 10⟩ _ hchecks
  refine ⟨hchecks, ?_, htracked Nat.one_ne_zero⟩
  rw [hisolated "ann"]
  rfl

end CodeTidy.Limiter
