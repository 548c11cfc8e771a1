import CodeTidy.Proofs.Memo.Serving
import Mathlib.Algebra.Order.Group.Nat

/-!
# Rounds of turns

In a round that finds somebody without an answer, the first of those takes a turn of its initializer
or gets the value, so fewer turns are left to take. After as many rounds as there are turns everyone
has an answer. What a group comes to is then read off the state in which it is: callers who find no
value are served in their order, and callers who find one get it.
-/

namespace CodeTidy.Memo

variable {α σ ε π : Type}

section rounds

variable {p : Permit π} {line : π → List ℕ} {g : Group π σ ε α} {n : ℕ}
  {tasks : List (Task σ ε α)} {start : σ}

/-- The turns that the initializer of a caller may still need. -/
def Caller.left : Caller σ ε α → ℕ
  | .answered _ => 0
  | .arriving t | .waiting t | .running t => t.turns.length + 1

/-- The turns that the initializers of callers may still need. -/
def Caller.leftOf (callers : List (Caller σ ε α)) : ℕ := callers.foldr (fun c n => c.left + n) 0

/-- The turns of the first caller come first. -/
theorem Caller.leftOf_cons (c : Caller σ ε α) (callers : List (Caller σ ε α)) :
    Caller.leftOf (c :: callers) = c.left + Caller.leftOf callers := rfl

/-- The turns of callers behind others come on top. -/
theorem Caller.leftOf_append (callers others : List (Caller σ ε α)) :
    Caller.leftOf (callers ++ others) = Caller.leftOf callers + Caller.leftOf others := by
  induction callers with
  | nil => exact (Nat.zero_add _).symm
  | cons c callers ih =>
    rw [List.cons_append, Caller.leftOf_cons, Caller.leftOf_cons, ih, Nat.add_assoc]

/-- The turns that the initializers of a group may still need. -/
def Group.left (g : Group π σ ε α) : ℕ := Caller.leftOf g.callers

/-- A turn of an initializer is one turn less to take. -/
theorem Task.Works.left_lt {t : Task σ ε α} {cell : Cell π σ α}
    {behind : Caller σ ε α × Cell π σ α} (h : t.Works p cell behind) :
    behind.1.left < t.turns.length + 1 := by
  cases h with
  | continues _ hless => exact Nat.succ_lt_succ hless
  | fails | succeeds => exact Nat.succ_pos _

/-- No turn leaves more turns to take. -/
theorem Caller.turn_left_le (p : Permit π) (n : ℕ) (c : Caller σ ε α) (cell : Cell π σ α) :
    (c.turn p n cell).1.left ≤ c.left := by
  have hwork : ∀ (t : Task σ ε α) (cell : Cell π σ α),
      (t.work p cell).1.left ≤ t.turns.length + 1 :=
    fun t cell => (t.work_works p cell).left_lt.le
  unfold Caller.turn
  cases c with
  | answered r => exact Nat.le.refl
  | running t => exact hwork t cell
  | waiting t | arriving t =>
    dsimp only
    split
    · exact Nat.zero_le _
    · split_ifs
      · exact hwork t _
      · exact Nat.le.refl

/-- Behind its turn a caller has come. -/
theorem Caller.turn_ne_arriving (p : Permit π) (n : ℕ) (c : Caller σ ε α) (cell : Cell π σ α)
    (t : Task σ ε α) : (c.turn p n cell).1 ≠ .arriving t := by
  have hwork : ∀ (s : Task σ ε α) (cell : Cell π σ α), (s.work p cell).1 ≠ .arriving t := by
    intro s cell
    have hworks := s.work_works p cell
    generalize s.work p cell = behind at hworks ⊢
    cases hworks <;> simp
  unfold Caller.turn
  cases c with
  | answered r => simp
  | running s => exact hwork s cell
  | waiting s | arriving s =>
    dsimp only
    split
    · simp
    · split_ifs
      · exact hwork s _
      · simp

/-- A turn takes from the turns of the group what it takes from those of the caller. -/
theorem Group.left_turn_of_split (p : Permit π) {before after : List (Caller σ ε α)}
    {c : Caller σ ε α} (h : g.callers = before ++ c :: after) (hn : before.length = n) :
    (g.turn p n).left + c.left = g.left + (c.turn p n g.cell).1.left := by
  rw [Group.turn_of_split p h hn]
  unfold Group.left
  rw [h, Caller.leftOf_append, Caller.leftOf_append, Caller.leftOf_cons, Caller.leftOf_cons]
  omega

/-- No turn of anybody leaves more turns to take. -/
theorem Group.turn_left_le (p : Permit π) (g : Group π σ ε α) (n : ℕ) :
    (g.turn p n).left ≤ g.left := by
  rcases Nat.lt_or_ge n g.callers.length with hn | hn
  · have hsplit : g.callers = g.callers.take n ++ g.callers[n] :: g.callers.drop (n + 1) := by
      rw [← List.drop_eq_getElem_cons hn, List.take_append_drop]
    have hless := Caller.turn_left_le p n g.callers[n] g.cell
    have hleft := Group.left_turn_of_split p hsplit (List.length_take_of_le hn.le)
    omega
  · rw [Group.turn_of_length_le hn]

/-- No turns leave more turns to take. -/
theorem Group.turns_left_le (p : Permit π) (schedule : List ℕ) (g : Group π σ ε α) :
    (g.turns p schedule).left ≤ g.left := by
  induction schedule generalizing g with
  | nil => exact Nat.le.refl
  | cons n schedule ih => exact (ih (g.turn p n)).trans (g.turn_left_le p n)

/-- Behind some turns come others. -/
theorem Group.turns_append (p : Permit π) (g : Group π σ ε α) (schedule schedule' : List ℕ) :
    g.turns p (schedule ++ schedule') = (g.turns p schedule).turns p schedule' :=
  List.foldl_append

/-- Behind those who have their answers stands one whose next turn leaves fewer turns to take. -/
def Group.Advances (p : Permit π) (g : Group π σ ε α) : Prop :=
  ∃ (answers : List (Except ε α)) (c : Caller σ ε α) (others : List (Caller σ ε α)),
    g.callers = answers.map .answered ++ c :: others ∧
      (c.turn p answers.length g.cell).1.left < c.left

/-- Then a round leaves fewer turns to take. -/
theorem Group.Advances.round (h : g.Advances p) :
    (g.turns p (List.range g.callers.length)).left < g.left := by
  obtain ⟨answers, c, others, hcallers, hless⟩ := h
  -- The turns of those who have their answers change nothing.
  have hfront : ∀ k ≤ answers.length, g.turns p (List.range k) = g := by
    intro k hk
    induction k with
    | zero => rfl
    | succ k ih =>
      rw [List.range_succ, Group.turns_append, ih (Nat.le_of_succ_le hk)]
      exact Group.turn_of_answered hcallers hk
  have hlength : g.callers.length = answers.length + (others.length + 1) := by
    simp [hcallers]
  have hturn : (g.turn p answers.length).left < g.left := by
    have hleft := Group.left_turn_of_split p hcallers (List.length_map _)
    omega
  rw [hlength, List.range_add, List.range_succ_eq_map, Group.turns_append,
    hfront _ Nat.le.refl]
  exact (Group.turns_left_le p _ (g.turn p answers.length)).trans_lt hturn

/-- The callers in front who have got a value, up to the first who has no answer, if there is
one. -/
theorem exists_pending {a : α} : ∀ {rest : List (Caller σ ε α)},
    (∀ c ∈ rest, c = .answered (.ok a) ∨ c.IsPending) →
      rest = (List.replicate rest.length (.ok a)).map .answered ∨
        ∃ (k : ℕ) (c : Caller σ ε α) (others : List (Caller σ ε α)),
          rest = (List.replicate k (.ok a)).map .answered ++ c :: others ∧ c.IsPending
  | [], _ => .inl rfl
  | c :: rest, h => by
    rcases h c List.mem_cons_self with rfl | hpending
    · rcases exists_pending fun c hc => h c (List.mem_cons_of_mem _ hc) with
        hall | ⟨k, c, others, hrest, hpending⟩
      · exact .inl (congrArg (Caller.answered (.ok a) :: ·) hall)
      · exact .inr ⟨k + 1, c, others, congrArg (Caller.answered (.ok a) :: ·) hrest, hpending⟩
    · exact .inr ⟨0, c, rest, rfl, hpending⟩

/-- Everyone has an answer. -/
def Group.Done (g : Group π σ ε α) : Prop := ∀ c ∈ g.callers, ∃ r, c = .answered r

/-- Then there are no more turns to take. -/
theorem Group.Done.left_eq (h : g.Done) : g.left = 0 := by
  have hcallers : ∀ callers : List (Caller σ ε α), (∀ c ∈ callers, ∃ r, c = .answered r) →
      Caller.leftOf callers = 0 := by
    intro callers hanswered
    induction callers with
    | nil => rfl
    | cons c callers ih =>
      obtain ⟨r, rfl⟩ := hanswered c List.mem_cons_self
      have hrest := ih fun c hc => hanswered c (List.mem_cons_of_mem _ hc)
      rw [Caller.leftOf_cons, hrest]
      rfl
  exact hcallers g.callers h

/-- The answers of those who have got theirs. -/
theorem filterMap_answered (answers : List (Except ε α)) :
    (answers.map (Caller.answered (σ := σ))).filterMap Caller.answer? = answers := by
  rw [List.filterMap_map]
  exact List.filterMap_some

/-- What every round preserves holds when everyone has an answer, after as many rounds as there are
turns to take, if it lets somebody advance as long as anybody has none. -/
theorem Group.rounds_done {P : Group π σ ε α → Prop}
    (hround : ∀ g, P g → P (g.turns p (List.range g.callers.length)))
    (hadvances : ∀ g, P g → g.Done ∨ g.Advances p) {g : Group π σ ε α} (h : P g) {k : ℕ}
    (hk : g.left ≤ k) : P (g.rounds p k) ∧ (g.rounds p k).Done := by
  have hless : ∀ (k : ℕ) (g : Group π σ ε α), P g →
      P (g.rounds p k) ∧ (g.rounds p k).left ≤ g.left - k := by
    intro k
    induction k with
    | zero => exact fun g h => ⟨h, Nat.le.refl⟩
    | succ k ih =>
      intro g h
      obtain ⟨hP, hleft⟩ := ih _ (hround g h)
      refine ⟨hP, hleft.trans ?_⟩
      rcases hadvances g h with hdone | hadvance
      · have hle := Group.turns_left_le p (List.range g.callers.length) g
        have hzero := hdone.left_eq
        omega
      · have hlt := hadvance.round
        omega
  obtain ⟨hP, hleft⟩ := hless k g h
  refine ⟨hP, ?_⟩
  rcases hadvances _ hP with hdone | hadvance
  · exact hdone
  · have hlt := hadvance.round
    omega

/-! ## What a group comes to -/

/-- Once the value is there, all have their answers or somebody gets the next one. -/
theorem Group.Settled.done_or_advances {front : List (Except ε α)} {a : α} {count : ℕ}
    (p : Permit π) (h : g.Settled front a count) : g.Done ∨ g.Advances p := by
  obtain ⟨rest, hcallers, -, hrest⟩ := h.callers
  rcases exists_pending hrest with hall | ⟨k, c, others, hsplit, hpending⟩
  · left
    intro c hc
    rw [hcallers, hall, ← List.map_append] at hc
    obtain ⟨r, -, rfl⟩ := List.mem_map.mp hc
    exact ⟨r, rfl⟩
  · right
    refine ⟨front ++ List.replicate k (.ok a), c, others, ?_, ?_⟩
    · rw [hcallers, hsplit, List.map_append, List.append_assoc]
    · rw [Caller.turn_settled h.value (.inr hpending)]
      obtain ⟨t, rfl | rfl⟩ := hpending <;> exact Nat.succ_pos _

/-- When all have their answers, those behind have got the value. -/
theorem Group.Settled.answers {front : List (Except ε α)} {a : α} {count : ℕ}
    (h : g.Settled front a count) (hdone : g.Done) :
    g.callers.filterMap Caller.answer? = front ++ List.replicate count (.ok a) := by
  obtain ⟨rest, hcallers, rfl, hrest⟩ := h.callers
  rcases exists_pending hrest with hall | ⟨k, c, others, hsplit, t, hpending⟩
  · rw [hcallers, List.filterMap_append, filterMap_answered, hall, filterMap_answered,
      List.length_map, List.length_replicate]
  · have hmem : c ∈ g.callers := by
      rw [hcallers, hsplit]
      simp
    obtain ⟨r, rfl⟩ := hdone c hmem
    simp at hpending

/-- A round leaves a group in order, and behind it all have come. -/
theorem Group.Standing.turns_range (hp : p.Fifo line) (h : g.Standing line tasks start) (k : ℕ) :
    (g.turns p (List.range k)).Standing line tasks start ∧
      ∀ m < k, ∀ t, (g.turns p (List.range k)).callers[m]? ≠ some (.arriving t) := by
  induction k with
  | zero => exact ⟨h, fun m hm => absurd hm (Nat.not_lt_zero m)⟩
  | succ k ih =>
    obtain ⟨hstanding, hcame⟩ := ih
    rw [List.range_succ, Group.turns_append]
    generalize g.turns p (List.range k) = g' at hstanding hcame ⊢
    refine ⟨hstanding.turn hp hcame, ?_⟩
    intro m hm t
    show (g'.turn p k).callers[m]? ≠ some (.arriving t)
    unfold Group.turn
    cases hget : g'.callers[k]? with
    | none =>
      rcases Nat.lt_succ_iff_lt_or_eq.mp hm with hlt | rfl
      · exact hcame m hlt t
      · simp [hget]
    | some c =>
      dsimp only
      rw [List.getElem?_set]
      split_ifs with hkm hlt
      · exact fun heq => Caller.turn_ne_arriving p k c g'.cell t (Option.some.inj heq)
      · simp
      · exact hcame m (by omega) t

/-- While somebody has no answer, the first of them advances. -/
theorem Group.Standing.done_or_advances (hp : p.Fifo line) (h : g.Standing line tasks start) :
    g.Done ∨ g.Advances p := by
  cases h with
  | @idle failed late answers htasks hserved hcallers hvalue hline =>
    cases late with
    | nil =>
      left
      intro c hc
      rw [hcallers, List.map_nil, List.append_nil] at hc
      obtain ⟨r, -, rfl⟩ := List.mem_map.mp hc
      exact ⟨r, rfl⟩
    | cons t late =>
      refine .inr ⟨answers, .arriving t, late.map .arriving, hcallers, ?_⟩
      rw [Caller.turn_arriving_first hp hvalue hline]
      exact (t.work_works p _).left_lt
  | @queued failed queue late t left answers world holder htasks hserved hholder hrun hcallers
      hvalue hline =>
    have hfirst : (line g.cell.permit).head? = some answers.length := by
      rw [hline]
      rfl
    refine .inr ⟨answers, holder, _, hcallers, ?_⟩
    rcases hholder with rfl | rfl
    · rw [Caller.turn_first hp hvalue hfirst]
      exact (left.work_works p g.cell).left_lt
    · exact (left.work_works p g.cell).left_lt
  | settled htasks hserved hrun hsettled => exact hsettled.done_or_advances p

/-- When all have their answers, they have been served. -/
theorem Group.Standing.served (h : g.Standing line tasks start) (hdone : g.Done) :
    Served tasks start (g.callers.filterMap Caller.answer?) g.cell.value g.cell.world := by
  cases h with
  | @idle failed late answers htasks hserved hcallers hvalue hline =>
    cases late with
    | nil =>
      rw [hcallers, List.map_nil, List.append_nil, filterMap_answered, hvalue, htasks,
        List.append_nil]
      exact hserved
    | cons t late =>
      have hmem : Caller.arriving t ∈ g.callers := by
        rw [hcallers]
        simp
      obtain ⟨r, hr⟩ := hdone _ hmem
      cases hr
  | @queued failed queue late t left answers world holder htasks hserved hholder hrun hcallers
      hvalue hline =>
    have hmem : holder ∈ g.callers := by
      rw [hcallers]
      simp
    obtain ⟨r, rfl⟩ := hdone _ hmem
    rcases hholder with hr | hr <;> cases hr
  | @settled failed later t answers world a htasks hserved hrun hsettled =>
    have hlater : List.replicate later.length (Except.ok (ε := ε) a) = later.map fun _ => .ok a :=
      List.map_const'.symm
    rw [hsettled.answers hdone, hsettled.value, htasks, List.append_assoc, hlater]
    exact hserved.append (.succeeded hrun)

/-- The turns that a group has to take before the first. -/
theorem Group.left_arriving (p : Permit π) (tasks : List (Task σ ε α)) (value : Option α)
    (world : σ) :
    (Group.arriving p tasks value world).left = Task.turnsOf tasks := by
  unfold Group.left Group.arriving Caller.leftOf Task.turnsOf
  rw [List.foldr_map]
  rfl

/-- Callers who find no value are served in their order. -/
theorem Group.rounds_served (hp : p.Fifo line) (tasks : List (Task σ ε α)) (world : σ) {k : ℕ}
    (hk : Task.turnsOf tasks ≤ k) :
    Served tasks world
      (((Group.arriving p tasks none world).rounds p k).callers.filterMap Caller.answer?)
      ((Group.arriving p tasks none world).rounds p k).cell.value
      ((Group.arriving p tasks none world).rounds p k).cell.world := by
  obtain ⟨hstanding, hdone⟩ := Group.rounds_done (p := p)
    (P := fun g => g.Standing line tasks world)
    (fun g h => (h.turns_range hp g.callers.length).1) (fun g h => h.done_or_advances hp)
    (Group.standing_arriving hp tasks world) ((Group.left_arriving p tasks none world).trans_le hk)
  exact hstanding.served hdone

/-- Callers who find a value get it, and nothing else happens. -/
theorem Group.rounds_found (p : Permit π) (tasks : List (Task σ ε α)) (a : α) (world : σ) {k : ℕ}
    (hk : Task.turnsOf tasks ≤ k) :
    ((Group.arriving p tasks (some a) world).rounds p k).callers.filterMap Caller.answer? =
        tasks.map (fun _ => .ok a) ∧
      ((Group.arriving p tasks (some a) world).rounds p k).cell.world = world := by
  have hturns : ∀ (schedule : List ℕ) (g : Group π σ ε α),
      (g.Settled [] a tasks.length ∧ g.cell.world = world) →
        (g.turns p schedule).Settled [] a tasks.length ∧
          (g.turns p schedule).cell.world = world := by
    intro schedule
    induction schedule with
    | nil => exact fun _ h => h
    | cons n schedule ih =>
      intro g h
      obtain ⟨hsettled, hcell⟩ := h.1.turn p n
      exact ih (g.turn p n) ⟨hsettled, by rw [hcell, h.2]⟩
  have hstart : (Group.arriving p tasks (some a) world).Settled [] a tasks.length := by
    refine ⟨rfl, tasks.map .arriving, rfl, List.length_map _, ?_⟩
    intro c hc
    obtain ⟨t, -, rfl⟩ := List.mem_map.mp hc
    exact .inr ⟨t, .inl rfl⟩
  obtain ⟨⟨hsettled, hworld⟩, hdone⟩ := Group.rounds_done (p := p)
    (P := fun g => g.Settled [] a tasks.length ∧ g.cell.world = world)
    (fun g h => hturns _ g h) (fun g h => h.1.done_or_advances p) ⟨hstart, rfl⟩
    ((Group.left_arriving p tasks (some a) world).trans_le hk)
  rw [hsettled.answers hdone]
  exact ⟨List.map_const'.symm, hworld⟩

end rounds

end CodeTidy.Memo
