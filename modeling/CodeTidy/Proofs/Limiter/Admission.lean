import CodeTidy.Proofs.Limiter.Isolation
import Mathlib.Data.List.Induction
import Mathlib.Tactic.Ring

/-!
# How many requests are admitted

The windows of a caller can be told from its requests alone: one opens with the first request, and
one with each request that comes later than the end of the window before. `admissions_bounded` says
that a request is admitted if fewer requests than the quota were admitted since its window opened,
and only then. A request that is rejected leaves no trace: without it, everybody is told the same.
And in no interval as long as a window are twice as many requests admitted as in a window.

The last statement rests on the two windows that can meet such an interval. The request that opened
the first of them comes too early for the interval if the interval reaches the second one, so the
two together do not fill it.
-/

namespace CodeTidy.Limiter

open Table

/-! ## Windows as requests open them -/

/-- The verdicts on the requests of a caller. -/
def own (caller : String) (vs : List Verdict) : List Verdict :=
  vs.filter fun v => v.check.caller == caller

/-- When the window opened in which a request at `now` falls, if the one in front of it opened at
`last`. A window opens with the first request, and with the first one strictly later than the end of
the window in front. -/
def opening (q : Quota) (now : ℕ) : Option ℕ → ℕ
  | none => now
  | some last => if last + q.windowMs < now then now else last

/-- When the window opened in which the last of some requests falls. -/
def lastOpening (q : Quota) (vs : List Verdict) : Option ℕ :=
  vs.foldl (fun last v => some (opening q v.check.now last)) none

/-- How many requests at certain times were admitted. -/
def admittedAt (times : ℕ → Bool) (vs : List Verdict) : ℕ :=
  vs.countP fun v => v.admitted && times v.check.now

/-- A request later than the end of the last window opens one. -/
theorem opening_later {q : Quota} {last now : ℕ} (h : last + q.windowMs < now) :
    opening q now (some last) = now := by
  unfold opening
  dsimp only
  rw [if_pos h]

/-- A request up to the end of the last window opens none. -/
theorem opening_within {q : Quota} {last now : ℕ} (h : ¬last + q.windowMs < now) :
    opening q now (some last) = last := by
  unfold opening
  dsimp only
  rw [if_neg h]

section verdicts

variable {q : Quota} {vs : List Verdict} {v : Verdict} {caller : String}

/-- A verdict on another caller's request is none of the caller's. -/
theorem own_snoc_other (h : v.check.caller ≠ caller) : own caller (vs ++ [v]) = own caller vs := by
  unfold own
  rw [List.filter_append, List.filter_cons_of_neg (by simpa using h), List.filter_nil,
    List.append_nil]

/-- A verdict on the caller's request is the last of its own. -/
theorem own_snoc_self : own v.check.caller (vs ++ [v]) = own v.check.caller vs ++ [v] := by
  unfold own
  rw [List.filter_append, List.filter_cons_of_pos (by simp), List.filter_nil]

/-- One request more opens a window or falls in the last one. -/
theorem lastOpening_snoc :
    lastOpening q (vs ++ [v]) = some (opening q v.check.now (lastOpening q vs)) := by
  unfold lastOpening
  rw [List.foldl_append, List.foldl_cons, List.foldl_nil]

/-- One request more counts if it was admitted at one of the times. -/
theorem admittedAt_snoc (times : ℕ → Bool) :
    admittedAt times (vs ++ [v]) =
      admittedAt times vs + if v.admitted && times v.check.now then 1 else 0 := by
  unfold admittedAt
  rw [List.countP_append, List.countP_singleton]

/-- A request at another time does not count. -/
theorem admittedAt_snoc_of_not {times : ℕ → Bool} (h : times v.check.now = false) :
    admittedAt times (vs ++ [v]) = admittedAt times vs := by
  rw [admittedAt_snoc, h, Bool.and_false, if_neg Bool.false_ne_true, Nat.add_zero]

/-- More times count at least as many requests. -/
theorem admittedAt_mono {times more : ℕ → Bool}
    (h : ∀ v ∈ vs, times v.check.now = true → more v.check.now = true) :
    admittedAt times vs ≤ admittedAt more vs := by
  unfold admittedAt
  refine List.countP_mono_left fun v hv hcounts => ?_
  rw [Bool.and_eq_true] at hcounts ⊢
  exact ⟨hcounts.1, h v hv hcounts.2⟩

/-- Times at which nothing was requested count nothing. -/
theorem admittedAt_eq_zero {times : ℕ → Bool} (h : ∀ v ∈ vs, times v.check.now = false) :
    admittedAt times vs = 0 := by
  unfold admittedAt
  rw [List.countP_eq_zero]
  intro v hv
  rw [h v hv, Bool.and_false]
  exact Bool.false_ne_true

/-- Nothing was admitted from a time on if all requests came before it. -/
theorem admittedAt_from_eq_zero {now : ℕ} (h : ∀ v ∈ vs, v.check.now < now) :
    admittedAt (now ≤ ·) vs = 0 :=
  admittedAt_eq_zero fun v hv => by simpa using h v hv

/-- Times that do not meet count their requests apart. -/
theorem admittedAt_or {times more : ℕ → Bool}
    (h : ∀ now, times now = true → more now = false) :
    admittedAt (fun now => times now || more now) vs =
      admittedAt times vs + admittedAt more vs := by
  induction vs using List.reverseRecOn with
  | nil => rfl
  | append_singleton vs v ih =>
    have hmeet := h v.check.now
    rw [admittedAt_snoc, admittedAt_snoc, admittedAt_snoc, ih]
    cases v.admitted <;> cases ht : times v.check.now <;> cases hm : more v.check.now <;>
      simp_all <;> omega

end verdicts

/-! ## The windows of one caller -/

/-- What is known of a caller's requests, of which the last falls in the window that opened at
`last`. -/
structure Paced (q : Quota) (last : ℕ) (vs : List Verdict) : Prop where
  opened : lastOpening q vs = some last
  /-- No request came later than the end of the window. -/
  inside : ∀ v ∈ vs, v.check.now ≤ last + q.windowMs
  /-- The request that opened the window was admitted. -/
  first : 0 < admittedAt (· == last) vs
  /-- The window holds no more requests than the quota. -/
  recent : admittedAt (last ≤ ·) vs ≤ q.requests
  /-- Of the requests in front of the window, fewer than the quota are less than the length of a
  window away from its opening. -/
  previous : ∀ t, last ≤ t + q.windowMs →
    admittedAt (fun now => t ≤ now && now < last) vs < q.requests
  interval : ∀ t,
    admittedAt (fun now => t ≤ now && now ≤ t + q.windowMs) vs < 2 * q.requests

section paced

variable {q : Quota} {last : ℕ} {vs : List Verdict} {v : Verdict}

/-- All requests came before a time that is later than the end of the window. -/
theorem Paced.all_before (h : Paced q last vs) {now : ℕ} (hlater : last + q.windowMs < now) :
    ∀ v ∈ vs, v.check.now < now :=
  fun v hv => (h.inside v hv).trans_lt hlater

/-- The window opened with one of the requests. -/
theorem Paced.exists_first (h : Paced q last vs) : ∃ v ∈ vs, v.check.now = last := by
  have hfirst := h.first
  unfold admittedAt at hfirst
  obtain ⟨v, hv, hcounts⟩ := List.countP_pos_iff.mp hfirst
  rw [Bool.and_eq_true, beq_iff_eq] at hcounts
  exact ⟨v, hv, hcounts.2⟩

/-- Behind the opening of the window fewer requests are admitted than in the whole of it. -/
theorem Paced.later_lt (h : Paced q last vs) : admittedAt (last < ·) vs < q.requests := by
  have hapart : ∀ now, (now == last) = true → decide (last < now) = false := by
    intro now hnow
    rw [beq_iff_eq] at hnow
    simp [hnow]
  have hsum : admittedAt (fun now => now == last || decide (last < now)) vs =
      admittedAt (· == last) vs + admittedAt (last < ·) vs := admittedAt_or hapart
  have hmono : admittedAt (fun now => now == last || decide (last < now)) vs ≤
      admittedAt (last ≤ ·) vs := by
    refine admittedAt_mono fun v _ hv => ?_
    simp only [Bool.or_eq_true, beq_iff_eq, decide_eq_true_eq] at hv ⊢
    omega
  have hfirst := h.first
  have hrecent := h.recent
  omega

/-- In an interval as long as a window, one request more keeps to the bound if the windows do. -/
theorem interval_snoc
    (hrecent : admittedAt (last ≤ ·) (vs ++ [v]) ≤ q.requests)
    (hprevious : ∀ t, last ≤ t + q.windowMs →
      admittedAt (fun now => t ≤ now && now < last) (vs ++ [v]) < q.requests)
    (hinterval : ∀ t,
      admittedAt (fun now => t ≤ now && now ≤ t + q.windowMs) vs < 2 * q.requests)
    (hlast : last ≤ v.check.now) (t : ℕ) :
    admittedAt (fun now => t ≤ now && now ≤ t + q.windowMs) (vs ++ [v]) < 2 * q.requests := by
  by_cases ht : t ≤ v.check.now ∧ v.check.now ≤ t + q.windowMs
  · -- The interval reaches the last window, so it meets that one and the one in front.
    have hapart : ∀ now, (decide (t ≤ now) && decide (now < last)) = true →
        decide (last ≤ now) = false := by
      intro now hnow
      simp only [Bool.and_eq_true, decide_eq_true_eq] at hnow
      simp [hnow.2]
    have hsum : admittedAt
          (fun now => (decide (t ≤ now) && decide (now < last)) || decide (last ≤ now)) (vs ++ [v]) =
        admittedAt (fun now => t ≤ now && now < last) (vs ++ [v]) +
          admittedAt (last ≤ ·) (vs ++ [v]) := admittedAt_or hapart
    have hmono : admittedAt (fun now => t ≤ now && now ≤ t + q.windowMs) (vs ++ [v]) ≤
        admittedAt (fun now => (decide (t ≤ now) && decide (now < last)) || decide (last ≤ now))
          (vs ++ [v]) := by
      refine admittedAt_mono fun w _ hw => ?_
      simp only [Bool.or_eq_true, Bool.and_eq_true, decide_eq_true_eq] at hw ⊢
      omega
    have hbefore := hprevious t (hlast.trans ht.2)
    omega
  · rw [admittedAt_snoc_of_not (by simpa using ht)]
    exact hinterval t

/-- A request behind the last window opens one. -/
theorem Paced.opens (hbefore : ∀ w ∈ vs, w.check.now < v.check.now)
    (hopens : opening q v.check.now (lastOpening q vs) = v.check.now)
    (hadmitted : v.admitted = true) (hlimit : 0 < q.requests)
    (hprevious : ∀ t, v.check.now ≤ t + q.windowMs →
      admittedAt (fun now => t ≤ now && now < v.check.now) vs < q.requests)
    (hinterval : ∀ t,
      admittedAt (fun now => t ≤ now && now ≤ t + q.windowMs) vs < 2 * q.requests) :
    Paced q v.check.now (vs ++ [v]) := by
  have hnone : ∀ times : ℕ → Bool, (∀ now, times now = true → v.check.now ≤ now) →
      admittedAt times vs = 0 := by
    intro times htimes
    refine admittedAt_eq_zero fun w hw => ?_
    by_contra hcounts
    have hle := htimes w.check.now (by simpa using hcounts)
    have hlt := hbefore w hw
    omega
  have hrecent : admittedAt (v.check.now ≤ ·) (vs ++ [v]) ≤ q.requests := by
    rw [admittedAt_snoc, hnone _ (by simp)]
    split_ifs <;> omega
  have hprevious' : ∀ t, v.check.now ≤ t + q.windowMs →
      admittedAt (fun now => t ≤ now && now < v.check.now) (vs ++ [v]) < q.requests := by
    intro t ht
    rw [admittedAt_snoc_of_not (by simp)]
    exact hprevious t ht
  refine ⟨?_, ?_, ?_, hrecent, hprevious', ?_⟩
  · rw [lastOpening_snoc, hopens]
  · intro w hw
    rcases List.mem_append.mp hw with hold | hnew
    · have hlt := hbefore w hold
      omega
    · rw [List.mem_singleton.mp hnew]
      exact Nat.le_add_right _ _
  · rw [admittedAt_snoc, hadmitted]
    simp
  · exact interval_snoc hrecent hprevious' hinterval Nat.le.refl

/-- The first request opens a window. -/
theorem Paced.single (hadmitted : v.admitted = true) (hlimit : 0 < q.requests) :
    Paced q v.check.now [v] := by
  have hopens : Paced q v.check.now ([] ++ [v]) :=
    Paced.opens (by simp) rfl hadmitted hlimit (fun _ _ => hlimit)
      (fun _ => Nat.mul_pos two_pos hlimit)
  exact hopens

/-- A request later than the end of the last window opens the next one. -/
theorem Paced.reopens (h : Paced q last vs) (hlater : last + q.windowMs < v.check.now)
    (hadmitted : v.admitted = true) (hlimit : 0 < q.requests) :
    Paced q v.check.now (vs ++ [v]) := by
  refine Paced.opens (h.all_before hlater) ?_ hadmitted hlimit ?_ h.interval
  · rw [h.opened, opening_later hlater]
  · -- What is so near to the new window came behind the opening of the last one.
    intro t ht
    refine (admittedAt_mono fun w _ hw => ?_).trans_lt h.later_lt
    simp only [Bool.and_eq_true, decide_eq_true_eq] at hw ⊢
    omega

/-- A request up to the end of the last window falls in it. -/
theorem Paced.stays (h : Paced q last vs) (hlast : last ≤ v.check.now)
    (hin : v.check.now ≤ last + q.windowMs)
    (hadmitted : v.admitted = true ↔ admittedAt (last ≤ ·) vs < q.requests) :
    Paced q last (vs ++ [v]) := by
  have hrecent : admittedAt (last ≤ ·) (vs ++ [v]) ≤ q.requests := by
    have hbefore := h.recent
    rw [admittedAt_snoc]
    split_ifs with hcounts
    · have hlt := hadmitted.mp (Bool.and_eq_true_iff.mp hcounts).1
      omega
    · omega
  have hprevious : ∀ t, last ≤ t + q.windowMs →
      admittedAt (fun now => t ≤ now && now < last) (vs ++ [v]) < q.requests := by
    intro t ht
    have hnot : (decide (t ≤ v.check.now) && decide (v.check.now < last)) = false := by
      simp [Nat.not_lt.mpr hlast]
    rw [admittedAt_snoc_of_not hnot]
    exact h.previous t ht
  refine ⟨?_, ?_, ?_, hrecent, hprevious, interval_snoc hrecent hprevious h.interval hlast⟩
  · rw [lastOpening_snoc, h.opened, opening_within (Nat.not_lt.mpr hin)]
  · intro w hw
    rcases List.mem_append.mp hw with hold | hnew
    · exact h.inside w hold
    · rw [List.mem_singleton.mp hnew]
      exact hin
  · rw [admittedAt_snoc]
    exact Nat.add_pos_left h.first _

end paced

/-! ## One check -/

section step

variable {q : Quota} {l m : Limiter} {now later : ℕ} {caller : String}

/-- A check sets the window of its caller and nobody else's. -/
theorem nextWindow_check (hl : Distinct l.windows) (hlimit : l.quota.requests ≠ 0)
    (hle : now ≤ later) (other : String) :
    (l.check now caller).2.nextWindow later other =
      if other = caller then
        windowAt l.quota later (some (counted l.quota (l.nextWindow now caller)).2)
      else l.nextWindow later other := by
  rw [check_of_limited hl hlimit]
  unfold nextWindow
  dsimp only
  rw [lookup_setWindow]
  split_ifs
  · rfl
  · exact windowAt_pruned hl hle other

/-- Counting a request takes a place of its window, if there is one left. -/
theorem counted_snd (q : Quota) (w : Window) :
    (counted q w).2 = ⟨w.opened, w.admitted + if w.admitted < q.requests then 1 else 0⟩ := by
  unfold counted
  split_ifs <;> first | rfl | omega

/-- A window that is known stays in force up to its end. -/
theorem windowAt_some (q : Quota) (now : ℕ) (w : Window) :
    windowAt q now (some w) = if w.opened + q.windowMs < now then ⟨now, 0⟩ else w := by
  unfold windowAt isOpen
  simp only [decide_eq_true_eq]
  split_ifs <;> first | rfl | omega

/-- A limiter behind verdicts, as far as a caller can tell: the window in which the next request of
the caller falls opened when its requests say, and holds those of them that were admitted since. -/
structure Follows (q : Quota) (caller : String) (vs : List Verdict) (l : Limiter) : Prop where
  quota : l.quota = q
  distinct : Distinct l.windows
  window : ∀ now, (∀ v ∈ vs, v.check.now ≤ now) →
    l.nextWindow now caller =
      ⟨opening q now (lastOpening q (own caller vs)),
        admittedAt (opening q now (lastOpening q (own caller vs)) ≤ ·) (own caller vs)⟩
  paced : own caller vs = [] ∨ ∃ last, Paced q last (own caller vs)

/-- A new limiter follows on nothing. -/
theorem follows_nil (q : Quota) (caller : String) : Follows q caller [] { quota := q } :=
  ⟨rfl, List.nodup_nil, fun _ _ => rfl, .inl rfl⟩

variable {vs : List Verdict} {c : Check}

/-- A request is admitted if fewer requests than the quota were admitted since its window
opened. -/
theorem Follows.admitted_iff (h : Follows q c.caller vs l) (hlimit : 0 < q.requests)
    (hvs : ∀ v ∈ vs, v.check.now ≤ c.now) :
    (l.check c.now c.caller).1 = true ↔
      admittedAt (opening q c.now (lastOpening q (own c.caller vs)) ≤ ·) (own c.caller vs) <
        q.requests := by
  have hlimited : l.quota.requests ≠ 0 := by
    rw [h.quota]
    omega
  rw [check_of_limited h.distinct hlimited, h.window c.now hvs, h.quota]
  unfold counted
  dsimp only
  split_ifs with hfull
  · simp [hfull]
  · simp [Nat.not_le.mp hfull]

/-- A window that is full opened with a request in front. -/
theorem Follows.opening_of_full (h : Follows q caller vs l) (hlimit : 0 < q.requests)
    (hfull : ¬admittedAt (opening q now (lastOpening q (own caller vs)) ≤ ·) (own caller vs) <
      q.requests) :
    some (opening q now (lastOpening q (own caller vs))) = lastOpening q (own caller vs) := by
  rcases h.paced with hnil | ⟨last, hpaced⟩
  · rw [hnil] at hfull
    exact absurd hlimit hfull
  · rw [hpaced.opened] at hfull ⊢
    by_cases hlater : last + q.windowMs < now
    · rw [opening_later hlater, admittedAt_from_eq_zero (hpaced.all_before hlater)] at hfull
      exact absurd hlimit hfull
    · rw [opening_within hlater]

/-- A check of another caller makes no difference. -/
theorem Follows.other {v : Verdict} (h : Follows q caller vs l) (hlimit : 0 < q.requests)
    (hcaller : v.check.caller ≠ caller) :
    Follows q caller (vs ++ [v]) (l.check v.check.now v.check.caller).2 := by
  have hlimited : l.quota.requests ≠ 0 := by
    rw [h.quota]
    omega
  refine ⟨(check_quota l _ _).trans h.quota, distinct_check h.distinct _ _, ?_, ?_⟩
  · intro later hlater
    have hnow := hlater v (List.mem_append_right _ (List.mem_singleton_self v))
    rw [nextWindow_check h.distinct hlimited hnow, if_neg hcaller.symm, own_snoc_other hcaller]
    exact h.window later fun w hw => hlater w (List.mem_append_left _ hw)
  · rw [own_snoc_other hcaller]
    exact h.paced

/-- A check of the caller opens a window or falls in the last one. -/
theorem Follows.paced_snoc {v : Verdict} (h : Follows q v.check.caller vs l)
    (hlimit : 0 < q.requests) (hvs : ∀ w ∈ vs, w.check.now ≤ v.check.now)
    (hv : v.admitted = (l.check v.check.now v.check.caller).1) :
    Paced q (opening q v.check.now (lastOpening q (own v.check.caller vs)))
      (own v.check.caller vs ++ [v]) := by
  have hadmitted := h.admitted_iff hlimit hvs
  rw [← hv] at hadmitted
  rcases h.paced with hnil | ⟨last, hpaced⟩
  · rw [hnil] at hadmitted ⊢
    exact Paced.single (hadmitted.mpr hlimit) hlimit
  · rw [hpaced.opened] at hadmitted ⊢
    by_cases hlater : last + q.windowMs < v.check.now
    · rw [opening_later hlater] at hadmitted ⊢
      -- Nothing has been admitted yet when a window opens.
      rw [admittedAt_from_eq_zero (hpaced.all_before hlater)] at hadmitted
      exact hpaced.reopens hlater (hadmitted.mpr hlimit) hlimit
    · rw [opening_within hlater] at hadmitted ⊢
      obtain ⟨w, hw, rfl⟩ := hpaced.exists_first
      exact hpaced.stays (hvs w (List.mem_filter.mp hw).1) (Nat.not_lt.mp hlater) hadmitted

/-- A check of the caller leaves a limiter that follows on its verdict. -/
theorem Follows.self {v : Verdict} (h : Follows q v.check.caller vs l)
    (hlimit : 0 < q.requests) (hvs : ∀ w ∈ vs, w.check.now ≤ v.check.now)
    (hv : v.admitted = (l.check v.check.now v.check.caller).1) :
    Follows q v.check.caller (vs ++ [v]) (l.check v.check.now v.check.caller).2 := by
  have hlimited : l.quota.requests ≠ 0 := by
    rw [h.quota]
    omega
  have hpaced := h.paced_snoc hlimit hvs hv
  refine ⟨(check_quota l _ _).trans h.quota, distinct_check h.distinct _ _, ?_, ?_⟩
  · intro later hlater
    have hnow := hlater v (List.mem_append_right _ (List.mem_singleton_self v))
    have hadmitted := h.admitted_iff hlimit hvs
    rw [← hv] at hadmitted
    rw [nextWindow_check h.distinct hlimited hnow, if_pos rfl, h.window _ hvs, h.quota,
      own_snoc_self, hpaced.opened]
    -- The opening of the window is the time of a request, which is no later than this one.
    obtain ⟨w, hw, hfirst⟩ := hpaced.exists_first
    have hlast : opening q v.check.now (lastOpening q (own v.check.caller vs)) ≤ v.check.now := by
      rw [← hfirst]
      rcases List.mem_append.mp hw with hold | hself
      · exact hvs w (List.mem_filter.mp hold).1
      · rw [List.mem_singleton.mp hself]
    generalize opening q v.check.now (lastOpening q (own v.check.caller vs)) = last at *
    rw [counted_snd, windowAt_some]
    dsimp only
    by_cases hover : last + q.windowMs < later
    · have hnone := admittedAt_from_eq_zero (hpaced.all_before hover)
      rw [if_pos hover, opening_later hover, hnone]
    · rw [if_neg hover, opening_within hover, admittedAt_snoc]
      by_cases hfew : admittedAt (last ≤ ·) (own v.check.caller vs) < q.requests
      · rw [if_pos hfew, if_pos (by simp [hadmitted.mpr hfew, hlast])]
      · rw [if_neg hfew, if_neg (by simp [mt hadmitted.mp hfew])]
  · rw [own_snoc_self]
    exact .inr ⟨_, hpaced⟩

/-- Two limiters in whose windows the requests of every caller fall alike from a time on. -/
structure Matches (since : ℕ) (l m : Limiter) : Prop where
  quota : m.quota = l.quota
  distinct : Distinct l.windows
  distinct' : Distinct m.windows
  window : ∀ caller now, since ≤ now → m.nextWindow now caller = l.nextWindow now caller

/-- Limiters that match give the same verdict, and match behind it. -/
theorem Matches.checked {since : ℕ} (h : Matches since l m) (hlimit : l.quota.requests ≠ 0)
    (hle : since ≤ now) :
    (m.check now caller).1 = (l.check now caller).1 ∧
      Matches now (l.check now caller).2 (m.check now caller).2 := by
  have hlimit' : m.quota.requests ≠ 0 := by rwa [h.quota]
  refine ⟨?_, ?_, distinct_check h.distinct _ _, distinct_check h.distinct' _ _, ?_⟩
  · rw [check_of_limited h.distinct hlimit, check_of_limited h.distinct' hlimit', h.quota,
      h.window caller now hle]
  · rw [check_quota, check_quota, h.quota]
  · intro other later hlater
    rw [nextWindow_check h.distinct hlimit hlater, nextWindow_check h.distinct' hlimit' hlater,
      h.quota, h.window caller now hle, h.window other later (hle.trans hlater)]

/-- A window that is full is one that its caller has already. -/
theorem lookup_of_full (hlimit : l.quota.requests ≠ 0)
    (hfull : l.quota.requests ≤ (l.nextWindow now caller).admitted) :
    l.windows.lookup caller = some (l.nextWindow now caller) := by
  have hnew : ¬l.quota.requests ≤ 0 := fun hle => hlimit (Nat.le_zero.mp hle)
  unfold nextWindow at hfull ⊢
  cases hfound : l.windows.lookup caller with
  | none =>
    rw [hfound] at hfull
    exact absurd hfull hnew
  | some w =>
    rw [hfound, windowAt_some] at hfull
    rw [windowAt_some]
    split_ifs at hfull ⊢
    · exact absurd hfull hnew
    · rfl

/-- A limiter that has rejected a request matches the one that has not seen it. -/
theorem matches_of_rejected (hl : Distinct l.windows) (hlimit : l.quota.requests ≠ 0)
    (hrejected : (l.check now caller).1 = false) : Matches now (l.check now caller).2 l := by
  refine ⟨(check_quota l now caller).symm, distinct_check hl now caller, hl, ?_⟩
  intro other later hlater
  rw [nextWindow_check hl hlimit hlater]
  split_ifs with hother
  · subst hother
    rw [check_of_limited hl hlimit] at hrejected
    unfold counted at hrejected ⊢
    dsimp only at hrejected ⊢
    split_ifs at hrejected ⊢ with hfull
    dsimp only
    rw [← lookup_of_full hlimit hfull]
    rfl
  · rfl

end step

/-! ## Runs -/

section run

variable {l m : Limiter} {q : Quota}

/-- The limiter behind some checks. -/
def behind (l : Limiter) (checks : List Check) : Limiter :=
  checks.foldl (fun l c => (l.check c.now c.caller).2) l

/-- The verdicts of a run are on its checks. -/
theorem run_checks (l : Limiter) (checks : List Check) :
    (run check l checks).map Verdict.check = checks := by
  induction checks generalizing l with
  | nil => rfl
  | cons c cs ih => rw [run_cons, List.map_cons, ih]

/-- A run goes on where its first part has left the limiter. -/
theorem run_append (l : Limiter) (first rest : List Check) :
    run check l (first ++ rest) = run check l first ++ run check (behind l first) rest := by
  induction first generalizing l with
  | nil => rfl
  | cons c cs ih =>
    rw [List.cons_append, run_cons, run_cons, ih, List.cons_append]
    rfl

/-- A verdict of a run is on a check, which is made on the limiter behind those in front. -/
theorem run_split {checks : List Check} {before after : List Verdict} {v : Verdict}
    (h : run check l checks = before ++ v :: after) :
    ∃ first rest, checks = first ++ v.check :: rest ∧ before = run check l first ∧
      v.admitted = ((behind l first).check v.check.now v.check.caller).1 ∧
      after = run check ((behind l first).check v.check.now v.check.caller).2 rest := by
  induction before generalizing l checks with
  | nil =>
    cases checks with
    | nil => exact absurd h nofun
    | cons c cs =>
      rw [run_cons] at h
      obtain ⟨rfl, rfl⟩ := List.cons.inj h
      exact ⟨[], cs, rfl, rfl, rfl, rfl⟩
  | cons w before ih =>
    cases checks with
    | nil => exact absurd h nofun
    | cons c cs =>
      rw [run_cons] at h
      obtain ⟨rfl, hrest⟩ := List.cons.inj h
      obtain ⟨first, rest, rfl, rfl, hv, hafter⟩ := ih hrest
      exact ⟨c :: first, rest, rfl, rfl, hv, hafter⟩

/-- Limiters that match give the same answers. -/
theorem Matches.results {since : ℕ} {checks : List Check} (h : Matches since l m)
    (hlimit : l.quota.requests ≠ 0) (hchecks : checks.Pairwise fun c d => c.now ≤ d.now)
    (hsince : ∀ c ∈ checks, since ≤ c.now) :
    (run check m checks).map Verdict.result = (run check l checks).map Verdict.result := by
  induction checks generalizing l m since with
  | nil => rfl
  | cons c cs ih =>
    obtain ⟨hfirst, hrest⟩ := List.pairwise_cons.mp hchecks
    obtain ⟨hanswer, hbehind⟩ : (m.check c.now c.caller).1 = (l.check c.now c.caller).1 ∧
        Matches c.now (l.check c.now c.caller).2 (m.check c.now c.caller).2 :=
      h.checked hlimit (hsince c List.mem_cons_self)
    have hquota := hbehind.quota
    rw [run_cons, run_cons, List.map_cons, List.map_cons,
      ih hbehind (by rwa [check_quota]) hrest hfirst]
    unfold Verdict.result
    dsimp only
    rw [hanswer, hquota]

/-- Whatever was checked, the limiter follows on the verdicts. -/
theorem follows_run (hlimit : 0 < q.requests) {checks : List Check}
    (hchecks : checks.Pairwise fun c d => c.now ≤ d.now) (caller : String) :
    Follows q caller (run check { quota := q } checks) (behind { quota := q } checks) := by
  induction checks using List.reverseRecOn with
  | nil => exact follows_nil q caller
  | append_singleton checks c ih =>
    obtain ⟨hpairs, -, hlast⟩ := List.pairwise_append.mp hchecks
    have hfollows := ih hpairs
    have hvs : ∀ v ∈ run check { quota := q } checks, v.check.now ≤ c.now := by
      intro v hv
      refine hlast v.check ?_ c (List.mem_singleton_self c)
      rw [← run_checks { quota := q } checks]
      exact List.mem_map_of_mem hv
    rw [run_append]
    unfold behind
    rw [List.foldl_append]
    by_cases hc : c.caller = caller
    · subst hc
      exact hfollows.self (v := ⟨c, _, _⟩) hlimit hvs rfl
    · exact hfollows.other (v := ⟨c, _, _⟩) hlimit hc

end run

/-- A request is admitted if fewer requests of its caller than the quota were admitted since its
window opened, and only then. A request that is rejected opens no window, and without it everybody
is told the same. In every closed interval of the length of a window fewer requests of a caller are
admitted than fill two windows. -/
theorem admissions_bounded (q : Quota) (hlimit : 0 < q.requests) (checks : List Check)
    (hchecks : checks.Pairwise fun c d => c.now ≤ d.now) :
    (∀ before v after, run check { quota := q } checks = before ++ v :: after →
      let mine := own v.check.caller before
      (v.admitted = true ↔
        admittedAt (opening q v.check.now (lastOpening q mine) ≤ ·) mine < q.requests) ∧
      (v.admitted = false →
        lastOpening q (mine ++ [v]) = lastOpening q mine ∧
        (run check { quota := q } ((before ++ after).map Verdict.check)).map Verdict.result =
          (before ++ after).map Verdict.result)) ∧
    ∀ caller t, admittedAt (fun now => t ≤ now && now ≤ t + q.windowMs)
      (own caller (run check { quota := q } checks)) < 2 * q.requests := by
  refine ⟨?_, ?_⟩
  · intro before v after hrun
    obtain ⟨first, rest, rfl, rfl, hv, rfl⟩ := run_split hrun
    obtain ⟨hfirst, hrest, hacross⟩ := List.pairwise_append.mp hchecks
    obtain ⟨hnext, hrest⟩ := List.pairwise_cons.mp hrest
    have hfollows := follows_run hlimit hfirst v.check.caller
    have hvs : ∀ w ∈ run check { quota := q } first, w.check.now ≤ v.check.now := by
      intro w hw
      refine hacross w.check ?_ v.check List.mem_cons_self
      rw [← run_checks { quota := q } first]
      exact List.mem_map_of_mem hw
    have hadmitted := hfollows.admitted_iff hlimit hvs
    rw [← hv] at hadmitted
    refine ⟨hadmitted, fun hrejected => ⟨?_, ?_⟩⟩
    · rw [lastOpening_snoc]
      refine hfollows.opening_of_full hlimit fun hfew => ?_
      rw [hadmitted.mpr hfew] at hrejected
      exact Bool.noConfusion hrejected
    · -- Behind the rejected request the limiter matches the one in front of it.
      have hlimited : (behind { quota := q } first).quota.requests ≠ 0 := by
        rw [hfollows.quota]
        omega
      have hmatches := matches_of_rejected hfollows.distinct hlimited (hv.symm.trans hrejected)
      rw [List.map_append, run_checks, run_checks, run_append, List.map_append, List.map_append,
        hmatches.results (by rwa [check_quota]) hrest hnext]
  · intro caller t
    rcases (follows_run hlimit hchecks caller).paced with hnil | ⟨last, hpaced⟩
    · rw [hnil]
      exact Nat.mul_pos two_pos hlimit
    · exact hpaced.interval t

/-- With a quota of two requests a third one at the end of the window is rejected, and without it
the requests right behind are admitted as before. From `1` to `11` there are three. -/
theorem admissions_bounded_boundary :
    let q : Quota := ⟨2, 10⟩
    let checks : List Check := [⟨0, "ann"⟩, ⟨10, "ann"⟩, ⟨10, "ann"⟩, ⟨11, "ann"⟩, ⟨11, "ann"⟩]
    0 < q.requests ∧ (checks.Pairwise fun c d => c.now ≤ d.now) ∧
      (run check { quota := q } checks).map Verdict.admitted = [true, true, false, true, true] ∧
      (run check { quota := q } [⟨0, "ann"⟩, ⟨10, "ann"⟩, ⟨11, "ann"⟩, ⟨11, "ann"⟩]).map
          Verdict.result = [.ok (), .ok (), .ok (), .ok ()] ∧
      admittedAt (fun now => 1 ≤ now && now ≤ 1 + 10)
        (own "ann" (run check { quota := q } checks)) < 2 * 2 := by
  intro q checks
  have hlimit : 0 < q.requests := two_pos
  have hchecks : checks.Pairwise fun c d => c.now ≤ d.now := by simp [checks]
  have hrun : run check { quota := ⟨2, 10⟩ }
        [⟨0, "ann"⟩, ⟨10, "ann"⟩, ⟨10, "ann"⟩, ⟨11, "ann"⟩, ⟨11, "ann"⟩] =
      [⟨⟨0, "ann"⟩, true, ⟨⟨2, 10⟩, [("ann", ⟨0, 1⟩)]⟩⟩,
          ⟨⟨10, "ann"⟩, true, ⟨⟨2, 10⟩, [("ann", ⟨0, 2⟩)]⟩⟩] ++
        ⟨⟨10, "ann"⟩, false, ⟨⟨2, 10⟩, [("ann", ⟨0, 2⟩)]⟩⟩ ::
          [⟨⟨11, "ann"⟩, true, ⟨⟨2, 10⟩, [("ann", ⟨11, 1⟩)]⟩⟩,
            ⟨⟨11, "ann"⟩, true, ⟨⟨2, 10⟩, [("ann", ⟨11, 2⟩)]⟩⟩] := by
    rfl
  obtain ⟨hverdicts, hinterval⟩ := admissions_bounded q hlimit checks hchecks
  obtain ⟨-, hrejected⟩ := hverdicts _ _ _ hrun
  obtain ⟨-, hsame⟩ := hrejected rfl
  refine ⟨hlimit, hchecks, ?_, hsame, hinterval "ann" 1⟩
  rw [hrun]
  rfl

end CodeTidy.Limiter
