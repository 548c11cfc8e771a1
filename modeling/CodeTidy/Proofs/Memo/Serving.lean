import CodeTidy.Proofs.Memo.Turns

/-!
# Callers are served in order

Callers who ask together are served as if they had come one after the other, each only when the one
before has its answer. `Served` says what that is: initializers run in the order of their callers,
each from its first turn to its last, up to the first that succeeds, and everyone behind it gets
its value.

While callers come in the order of their numbers, a group is always in one of the states of
`Standing`. The callers in front have the answers that they would get one after the other, the first
in the line has its initializer under way or is about to start it, and what is left of that
initializer comes to the same as the whole.
-/

namespace CodeTidy.Memo

variable {α σ ε π : Type}

/-- Callers who come one after the other, with the world in which the first one comes: the answers
that they get, the value that is there behind them, and the world behind them. -/
inductive Served : List (Task σ ε α) → σ → List (Except ε α) → Option α → σ → Prop
  /-- Nobody comes. -/
  | nobody {world : σ} : Served [] world [] none world
  /-- The initializer of the first caller fails, and the next caller is served. -/
  | failed {t : Task σ ε α} {ts : List (Task σ ε α)} {world world' world'' : σ} {e : ε}
      {answers : List (Except ε α)} {value : Option α} (hrun : t.run world = (.error e, world'))
      (hrest : Served ts world' answers value world'') :
    Served (t :: ts) world (.error e :: answers) value world''
  /-- The initializer of the first caller succeeds, and no other runs. -/
  | succeeded {t : Task σ ε α} {ts : List (Task σ ε α)} {world world' : σ} {a : α}
      (hrun : t.run world = (.ok a, world')) :
    Served (t :: ts) world (.ok a :: ts.map fun _ => .ok a) (some a) world'

/-- Callers behind others who all failed are served where these leave off. -/
theorem Served.append {ts ts' : List (Task σ ε α)} {world world' world'' : σ}
    {answers answers' : List (Except ε α)} {value : Option α}
    (h : Served ts world answers none world') (h' : Served ts' world' answers' value world'') :
    Served (ts ++ ts') world (answers ++ answers') value world'' := by
  generalize hnone : (none : Option α) = found at h
  induction h with
  | nobody => exact h'
  | failed hrun _ ih => exact .failed hrun (ih h' hnone)
  | succeeded => cases hnone

/-! ## Once the value is there -/

section settled

variable {p : Permit π} {g : Group π σ ε α} {n count : ℕ} {front : List (Except ε α)} {a : α}

/-- The caller has no answer and has not started its initializer. -/
def Caller.IsPending (c : Caller σ ε α) : Prop := ∃ t, c = .arriving t ∨ c = .waiting t

/-- The value is there. The callers in front have their answers, and those behind, of whom there are
so many, have got the value or have not had a turn since. -/
structure Group.Settled (front : List (Except ε α)) (a : α) (count : ℕ) (g : Group π σ ε α) :
    Prop where
  value : g.cell.value = some a
  callers : ∃ rest, g.callers = front.map .answered ++ rest ∧ rest.length = count ∧
    ∀ c ∈ rest, c = .answered (.ok a) ∨ c.IsPending

/-- Once the value is there, a turn of one behind gets it, if it is not answered yet. -/
theorem Caller.turn_settled {c : Caller σ ε α} {cell : Cell π σ α} {a : α}
    (hvalue : cell.value = some a) (hc : c = .answered (.ok a) ∨ c.IsPending) :
    c.turn p n cell = (.answered (.ok a), cell) := by
  rcases hc with rfl | ⟨t, rfl | rfl⟩
  · rfl
  all_goals
    unfold Caller.turn
    simp only [hvalue]

/-- A turn of a caller who has an answer changes nothing. -/
theorem Group.turn_of_answered {answers : List (Except ε α)} {others : List (Caller σ ε α)}
    (hcallers : g.callers = answers.map .answered ++ others) (hn : n < answers.length) :
    g.turn p n = g := by
  have hget : g.callers[n]? = some (.answered answers[n]) := by
    rw [hcallers, List.getElem?_append_left (by simpa using hn), List.getElem?_map,
      List.getElem?_eq_getElem hn]
    rfl
  exact Group.turn_eq_self hget rfl

/-- Whoever has the next turn, the group stays settled, and nothing happens to what all share. -/
theorem Group.Settled.turn (p : Permit π) (h : g.Settled front a count) (n : ℕ) :
    (g.turn p n).Settled front a count ∧ (g.turn p n).cell = g.cell := by
  obtain ⟨rest, hcallers, hlength, hrest⟩ := h.callers
  rcases Nat.lt_or_ge n front.length with hn | hn
  · rw [Group.turn_of_answered hcallers hn]
    exact ⟨h, rfl⟩
  obtain ⟨k, rfl⟩ := Nat.exists_eq_add_of_le hn
  rcases Nat.lt_or_ge k rest.length with hk | hk
  · -- The turn of one behind, who gets the value.
    have hsplit : g.callers = (front.map .answered ++ rest.take k) ++
        rest[k] :: rest.drop (k + 1) := by
      rw [hcallers, List.append_assoc, ← List.drop_eq_getElem_cons hk, List.take_append_drop]
    have hturn := Caller.turn_settled (p := p) (n := front.length + k) h.value
      (hrest _ (List.getElem_mem hk))
    have hlength' : (rest.take k ++ .answered (.ok a) :: rest.drop (k + 1)).length = count := by
      simp only [List.length_append, List.length_take, List.length_cons, List.length_drop]
      omega
    rw [Group.turn_of_split p hsplit (by simp [Nat.min_eq_left (Nat.le_of_lt hk)]), hturn, List.append_assoc]
    refine ⟨⟨h.value, _, rfl, hlength', ?_⟩, rfl⟩
    intro c hc
    rcases List.mem_append.mp hc with hfront | hback
    · exact hrest c (List.mem_of_mem_take hfront)
    rcases List.mem_cons.mp hback with rfl | hback
    · exact .inl rfl
    · exact hrest c (List.mem_of_mem_drop hback)
  · have hbeyond : g.callers.length ≤ front.length + k := by
      rw [hcallers, List.length_append, List.length_map]
      omega
    rw [Group.turn_of_length_le hbeyond]
    exact ⟨h, rfl⟩

end settled

/-! ## In the order of the callers -/

section order

variable {p : Permit π} {line : π → List ℕ} {g : Group π σ ε α} {n : ℕ}
  {tasks : List (Task σ ε α)} {start : σ}

/-- How a group stands whose callers came in the order of their numbers, to a world `start` in which
there was no value. -/
inductive Group.Standing (line : π → List ℕ) (tasks : List (Task σ ε α)) (start : σ)
    (g : Group π σ ε α) : Prop
  /-- All who have come have failed. -/
  | idle {failed late : List (Task σ ε α)} {answers : List (Except ε α)}
      (htasks : tasks = failed ++ late)
      (hserved : Served failed start answers none g.cell.world)
      (hcallers : g.callers = answers.map .answered ++ late.map .arriving)
      (hvalue : g.cell.value = none) (hline : line g.cell.permit = [])
  /-- Some have failed, one holds the permit, and the others who have come wait for it. What is left
  of the initializer of the one who holds it comes to the same as the whole. -/
  | queued {failed queue late : List (Task σ ε α)} {t left : Task σ ε α}
      {answers : List (Except ε α)} {world : σ} {holder : Caller σ ε α}
      (htasks : tasks = failed ++ t :: (queue ++ late))
      (hserved : Served failed start answers none world)
      (hholder : holder = .waiting left ∨ holder = .running left)
      (hrun : left.run g.cell.world = t.run world)
      (hcallers : g.callers =
        answers.map .answered ++ holder :: (queue.map .waiting ++ late.map .arriving))
      (hvalue : g.cell.value = none)
      (hline : line g.cell.permit = List.range' answers.length (queue.length + 1))
  /-- Some have failed and one has succeeded, and those behind get its value. -/
  | settled {failed later : List (Task σ ε α)} {t : Task σ ε α} {answers : List (Except ε α)}
      {world : σ} {a : α} (htasks : tasks = failed ++ t :: later)
      (hserved : Served failed start answers none world)
      (hrun : t.run world = (.ok a, g.cell.world))
      (hsettled : g.Settled (answers ++ [.ok a]) a later.length)

/-- Before the first turn all are still to come. -/
theorem Group.standing_arriving (hp : p.Fifo line) (tasks : List (Task σ ε α)) (start : σ) :
    (Group.arriving p tasks none start).Standing line tasks start :=
  .idle (show tasks = [] ++ tasks from rfl) .nobody rfl rfl hp.free

/-- A turn of the first initializer in the line leaves the group in order. -/
theorem Task.Works.standing (hp : p.Fifo line) {failed queue late : List (Task σ ε α)}
    {t left : Task σ ε α} {answers : List (Except ε α)} {world : σ} {cell : Cell π σ α}
    {behind : Caller σ ε α × Cell π σ α} (h : left.Works p cell behind)
    (htasks : tasks = failed ++ t :: (queue ++ late))
    (hserved : Served failed start answers none world)
    (hrun : left.run cell.world = t.run world) (hvalue : cell.value = none)
    (hline : line cell.permit = List.range' answers.length (queue.length + 1)) :
    Group.Standing line tasks start ⟨answers.map .answered ++
      behind.1 :: (queue.map .waiting ++ late.map .arriving), behind.2⟩ := by
  cases h with
  | continues hcontinues =>
    exact .queued htasks hserved (.inr rfl) (hcontinues.trans hrun) rfl hvalue hline
  | @fails e world' hfails =>
    have hserved' : Served (failed ++ [t]) start (answers ++ [.error e]) none world' :=
      hserved.append (.failed (hrun.symm.trans hfails) .nobody)
    have hreleased : line (p.release cell.permit) =
        List.range' (answers.length + 1) queue.length := by
      rw [hp.release, hline, List.range'_succ, List.tail_cons]
    cases queue with
    | nil =>
      have htasks' : tasks = (failed ++ [t]) ++ late := by simp [htasks]
      exact .idle htasks' hserved' (by simp) hvalue hreleased
    | cons next queue =>
      -- The permit goes to the next in the line, whose turn is still to come.
      have htasks' : tasks = (failed ++ [t]) ++ next :: (queue ++ late) := by simp [htasks]
      exact .queued htasks' hserved' (.inl rfl) rfl (by simp) hvalue (by simpa using hreleased)
  | @succeeds a world' hsucceeds =>
    have hcallers : answers.map .answered ++ .answered (.ok a) ::
        (queue.map Caller.waiting ++ late.map .arriving) =
          (answers ++ [Except.ok a]).map .answered ++ (queue.map .waiting ++ late.map .arriving) := by
      simp
    refine .settled htasks hserved (hrun.symm.trans hsucceeds) ⟨rfl, _, hcallers, by simp, ?_⟩
    intro c hc
    rcases List.mem_append.mp hc with hwaiting | harriving
    · obtain ⟨t', -, rfl⟩ := List.mem_map.mp hwaiting
      exact .inr ⟨t', .inr rfl⟩
    · obtain ⟨t', -, rfl⟩ := List.mem_map.mp harriving
      exact .inr ⟨t', .inl rfl⟩

/-- A turn of one who waits behind the first in the line changes nothing. -/
theorem Group.turn_of_queued (hp : p.Fifo line) {answers : List (Except ε α)}
    {holder : Caller σ ε α} {queue : List (Task σ ε α)} {others : List (Caller σ ε α)}
    (hcallers : g.callers =
      answers.map .answered ++ holder :: (queue.map .waiting ++ others))
    (hvalue : g.cell.value = none)
    (hline : line g.cell.permit = List.range' answers.length (queue.length + 1))
    (hlt : answers.length < n) (hle : n ≤ answers.length + queue.length) : g.turn p n = g := by
  obtain ⟨k, rfl⟩ : ∃ k, n = answers.length + (k + 1) :=
    ⟨n - answers.length - 1, by omega⟩
  have hk : k < queue.length := by omega
  have hget : g.callers[answers.length + (k + 1)]? = some (.waiting queue[k]) := by
    rw [hcallers, List.getElem?_append_right (by simp), List.length_map, Nat.add_sub_cancel_left,
      List.getElem?_cons_succ, List.getElem?_append_left (by simpa using hk), List.getElem?_map,
      List.getElem?_eq_getElem hk]
    rfl
  apply Group.turn_eq_self hget
  apply Caller.turn_waiting hp hvalue
  rw [hline, List.range'_succ, List.head?_cons]
  simp

/-- A caller in front of others has come, if all in front of it have. -/
theorem not_behind_arriving {before : List (Caller σ ε α)} {t : Task σ ε α}
    {others : List (Caller σ ε α)} (hcallers : g.callers = before ++ .arriving t :: others)
    (hcame : ∀ m < n, ∀ t, g.callers[m]? ≠ some (.arriving t)) : n ≤ before.length := by
  by_contra hn
  apply hcame before.length (by omega) t
  rw [hcallers, List.getElem?_append_right Nat.le.refl, Nat.sub_self]
  rfl

/-- Whoever has the next turn, a group stays in order in which all who have come have failed. -/
theorem Group.Standing.turn_idle (hp : p.Fifo line) {failed late : List (Task σ ε α)}
    {answers : List (Except ε α)} (htasks : tasks = failed ++ late)
    (hserved : Served failed start answers none g.cell.world)
    (hcallers : g.callers = answers.map .answered ++ late.map .arriving)
    (hvalue : g.cell.value = none) (hline : line g.cell.permit = [])
    (hcame : ∀ m < n, ∀ t, g.callers[m]? ≠ some (.arriving t)) :
    (g.turn p n).Standing line tasks start := by
  have hstands : g.Standing line tasks start := .idle htasks hserved hcallers hvalue hline
  rcases Nat.lt_or_ge n answers.length with hn | hn
  · rw [Group.turn_of_answered hcallers hn]
    exact hstands
  cases late with
  | nil =>
    have hlength : g.callers.length ≤ n := by simpa [hcallers] using hn
    rw [Group.turn_of_length_le hlength]
    exact hstands
  | cons t late =>
    have hlast := not_behind_arriving hcallers hcame
    rw [List.length_map] at hlast
    obtain rfl : answers.length = n := Nat.le_antisymm hn hlast
    have hasked : line (p.ask answers.length g.cell.permit) = List.range' answers.length 1 := by
      rw [hp.ask, hline]
      rfl
    have htasks' : tasks = failed ++ t :: ([] ++ late) := htasks
    rw [Group.turn_of_split p hcallers (List.length_map _),
      Caller.turn_arriving_first hp hvalue hline]
    exact (t.work_works p _).standing hp htasks' hserved rfl hvalue hasked

/-- Whoever has the next turn, a group stays in order in which one holds the permit. -/
theorem Group.Standing.turn_queued (hp : p.Fifo line) {failed queue late : List (Task σ ε α)}
    {t left : Task σ ε α} {answers : List (Except ε α)} {world : σ} {holder : Caller σ ε α}
    (htasks : tasks = failed ++ t :: (queue ++ late))
    (hserved : Served failed start answers none world)
    (hholder : holder = .waiting left ∨ holder = .running left)
    (hrun : left.run g.cell.world = t.run world)
    (hcallers : g.callers =
      answers.map .answered ++ holder :: (queue.map .waiting ++ late.map .arriving))
    (hvalue : g.cell.value = none)
    (hline : line g.cell.permit = List.range' answers.length (queue.length + 1))
    (hcame : ∀ m < n, ∀ t, g.callers[m]? ≠ some (.arriving t)) :
    (g.turn p n).Standing line tasks start := by
  have hstands : g.Standing line tasks start :=
    .queued htasks hserved hholder hrun hcallers hvalue hline
  have hfirst : (line g.cell.permit).head? = some answers.length := by
    rw [hline]
    rfl
  -- The turn of one who is answered, of the first in the line, of one who waits, or of the next to
  -- come.
  rcases Nat.lt_trichotomy n answers.length with hn | rfl | hn
  · rw [Group.turn_of_answered hcallers hn]
    exact hstands
  · have hturn : holder.turn p answers.length g.cell = left.work p g.cell := by
      rcases hholder with rfl | rfl
      · exact Caller.turn_first hp hvalue hfirst
      · rfl
    rw [Group.turn_of_split p hcallers (List.length_map _), hturn]
    exact (left.work_works p g.cell).standing hp htasks hserved hrun hvalue hline
  rcases Nat.lt_or_ge (answers.length + queue.length) n with hlate | hwaits
  · cases late with
    | nil =>
      have hlength : g.callers.length ≤ n := by
        simp only [hcallers, List.length_append, List.length_map, List.length_cons,
          List.length_nil]
        omega
      rw [Group.turn_of_length_le hlength]
      exact hstands
    | cons next late =>
      have hsplit : g.callers = (answers.map Caller.answered ++ holder :: queue.map .waiting) ++
          .arriving next :: late.map .arriving := by
        rw [hcallers]
        simp
      have hlength : (answers.map Caller.answered ++ holder :: queue.map .waiting).length =
          answers.length + (queue.length + 1) := by
        simp
      have hlast := not_behind_arriving hsplit hcame
      obtain rfl : answers.length + (queue.length + 1) = n := by omega
      have hasked : line (p.ask (answers.length + (queue.length + 1)) g.cell.permit) =
          List.range' answers.length ((queue ++ [next]).length + 1) := by
        rw [hp.ask, hline, List.length_append, List.length_singleton,
          List.range'_concat (n := queue.length + 1), Nat.one_mul]
      rw [Group.turn_of_split p hsplit hlength,
        Caller.turn_arriving_later hp hvalue hfirst (by omega)]
      have htasks' : tasks = failed ++ t :: ((queue ++ [next]) ++ late) := by simp [htasks]
      exact .queued htasks' hserved hholder hrun (by simp) hvalue hasked
  · rw [Group.turn_of_queued hp hcallers hvalue hline hn hwaits]
    exact hstands

/-- A turn of one in front of whom all have come leaves the group in order. -/
theorem Group.Standing.turn (hp : p.Fifo line) (h : g.Standing line tasks start)
    (hcame : ∀ m < n, ∀ t, g.callers[m]? ≠ some (.arriving t)) :
    (g.turn p n).Standing line tasks start := by
  cases h with
  | idle htasks hserved hcallers hvalue hline =>
    exact turn_idle hp htasks hserved hcallers hvalue hline hcame
  | queued htasks hserved hholder hrun hcallers hvalue hline =>
    exact turn_queued hp htasks hserved hholder hrun hcallers hvalue hline hcame
  | settled htasks hserved hrun hsettled =>
    obtain ⟨hsettled', hcell⟩ := hsettled.turn p n
    exact .settled htasks hserved (by rw [hrun, hcell]) hsettled'

end order

end CodeTidy.Memo
