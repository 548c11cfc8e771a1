import CodeTidy.Memo.Group
import Mathlib.Data.List.Basic

/-!
# Taking turns for a permit

`Permit.Fifo` says that a permit goes to those who ask for it in the order in which they ask. Then a
turn of a caller comes to little: it has an answer or gets the value, it waits on, or it takes the
next turn of its initializer. `running_unique` is what the permit is for: whoever takes turns, and
in whatever order, no two initializers are ever under way, because the caller of one that is under
way stands first in the line.
-/

namespace CodeTidy.Memo

variable {α σ ε π : Type}

/-- The permit goes to those who ask for it in the order in which they ask. There is a line of
those who have asked and not given it back, and the first one in the line holds it. -/
structure Permit.Fifo (p : Permit π) (line : π → List ℕ) : Prop where
  free : line p.free = []
  ask : ∀ n s, line (p.ask n s) = line s ++ [n]
  held : ∀ n s, p.held n s = true ↔ (line s).head? = some n
  release : ∀ s, line (p.release s) = (line s).tail

/-- Waiting in line is in order. -/
theorem Permit.inLine_fifo : Permit.inLine.Fifo id where
  free := rfl
  ask _ _ := rfl
  held _ _ := beq_iff_eq
  release _ := rfl

/-! ## One turn -/

/-- What a turn of an initializer comes to: it goes on, and what is left comes to the same as the
whole, or it fails and the permit is given back, or it succeeds and the value is there. -/
inductive Task.Works (p : Permit π) (t : Task σ ε α) (cell : Cell π σ α) :
    Caller σ ε α × Cell π σ α → Prop
  | continues {t' : Task σ ε α} {world : σ} (hrun : t'.run world = t.run cell.world)
      (hless : t'.turns.length < t.turns.length) :
    t.Works p cell (.running t', { cell with world })
  | fails {e : ε} {world : σ} (hrun : t.run cell.world = (.error e, world)) :
    t.Works p cell
      (.answered (.error e), { cell with permit := p.release cell.permit, world })
  | succeeds {a : α} {world : σ} (hrun : t.run cell.world = (.ok a, world)) :
    t.Works p cell (.answered (.ok a), { cell with value := some a, world })

/-- A turn of an initializer comes to one of these. -/
theorem Task.work_works (p : Permit π) (t : Task σ ε α) (cell : Cell π σ α) :
    t.Works p cell (t.work p cell) := by
  obtain ⟨turns, finish⟩ := t
  unfold work
  cases turns with
  | cons turn turns => exact .continues rfl (Nat.lt_succ_self _)
  | nil =>
    dsimp only
    rcases hfinish : finish cell.world with ⟨e | a, world⟩
    · exact .fails hfinish
    · exact .succeeds hfinish

section turn

variable {p : Permit π} {line : π → List ℕ} {g : Group π σ ε α} {n : ℕ}

/-- A caller who waits and whose turn has not come goes on waiting. -/
theorem Caller.turn_waiting (hp : p.Fifo line) {t : Task σ ε α} {cell : Cell π σ α}
    (hvalue : cell.value = none) (hturn : (line cell.permit).head? ≠ some n) :
    (Caller.waiting t).turn p n cell = (.waiting t, cell) := by
  have hheld : ¬p.held n cell.permit = true := fun h => hturn ((hp.held n _).mp h)
  unfold Caller.turn
  simp only [hvalue, if_neg hheld]

/-- A caller who waits and whose turn has come starts its initializer. -/
theorem Caller.turn_first (hp : p.Fifo line) {t : Task σ ε α} {cell : Cell π σ α}
    (hvalue : cell.value = none) (hturn : (line cell.permit).head? = some n) :
    (Caller.waiting t).turn p n cell = t.work p cell := by
  have hheld := (hp.held n _).mpr hturn
  unfold Caller.turn
  simp only [hvalue, if_pos hheld]

/-- A caller who comes asks for the permit, and then does as those who wait. -/
theorem Caller.turn_arriving (p : Permit π) (n : ℕ) {t : Task σ ε α} {cell : Cell π σ α}
    (hvalue : cell.value = none) :
    (Caller.arriving t).turn p n cell =
      (Caller.waiting t).turn p n { cell with permit := p.ask n cell.permit } := by
  unfold Caller.turn
  simp only [hvalue]

/-- A caller who comes when nobody has asked for the permit starts its initializer. -/
theorem Caller.turn_arriving_first (hp : p.Fifo line) {t : Task σ ε α} {cell : Cell π σ α}
    (hvalue : cell.value = none) (hline : line cell.permit = []) :
    (Caller.arriving t).turn p n cell = t.work p { cell with permit := p.ask n cell.permit } := by
  have hfirst : (line (p.ask n cell.permit)).head? = some n := by
    rw [hp.ask, hline]
    rfl
  rw [Caller.turn_arriving p n hvalue]
  exact Caller.turn_first hp hvalue hfirst

/-- A caller who comes behind another one waits. -/
theorem Caller.turn_arriving_later (hp : p.Fifo line) {t : Task σ ε α} {cell : Cell π σ α} {m : ℕ}
    (hvalue : cell.value = none) (hfirst : (line cell.permit).head? = some m) (hm : m ≠ n) :
    (Caller.arriving t).turn p n cell =
      (.waiting t, { cell with permit := p.ask n cell.permit }) := by
  have hbehind : (line (p.ask n cell.permit)).head? ≠ some n := by
    rw [hp.ask, List.head?_append, hfirst]
    simpa using hm
  rw [Caller.turn_arriving p n hvalue]
  exact Caller.turn_waiting hp hvalue hbehind

/-- A turn changes the caller whose turn it is, and what all share. -/
theorem Group.turn_of_split (p : Permit π) {before after : List (Caller σ ε α)}
    {c : Caller σ ε α} (h : g.callers = before ++ c :: after) (hn : before.length = n) :
    g.turn p n = ⟨before ++ (c.turn p n g.cell).1 :: after, (c.turn p n g.cell).2⟩ := by
  subst hn
  have hget : g.callers[before.length]? = some c := by
    rw [h, List.getElem?_append_right Nat.le.refl, Nat.sub_self]
    rfl
  unfold Group.turn
  rw [hget]
  dsimp only
  rw [h, List.set_append_right _ _ Nat.le.refl, Nat.sub_self]
  rfl

/-- A turn that changes neither the caller nor what all share changes nothing. -/
theorem Group.turn_eq_self {c : Caller σ ε α} (h : g.callers[n]? = some c)
    (hturn : c.turn p n g.cell = (c, g.cell)) : g.turn p n = g := by
  obtain ⟨hlt, hget⟩ := List.getElem?_eq_some_iff.mp h
  unfold Group.turn
  rw [h]
  dsimp only
  rw [hturn, ← hget, List.set_getElem_self]

/-- A turn of nobody changes nothing. -/
theorem Group.turn_of_length_le (h : g.callers.length ≤ n) : g.turn p n = g := by
  unfold Group.turn
  rw [List.getElem?_eq_none h]

end turn

/-! ## One initializer at a time -/

section exclusion

variable {p : Permit π} {line : π → List ℕ} {g : Group π σ ε α} {n : ℕ}

/-- Whoever has its initializer under way stands first in the line. -/
def Group.Exclusive (line : π → List ℕ) (g : Group π σ ε α) : Prop :=
  ∀ n t, g.callers[n]? = some (.running t) → (line g.cell.permit).head? = some n

/-- A turn of caller `n` leaves the line as it should be: if its initializer is under way behind the
turn then it stands first, and if somebody else stands first then this one still does. -/
def KeepsLine (line : π → List ℕ) (n : ℕ) (before : Cell π σ α)
    (behind : Caller σ ε α × Cell π σ α) : Prop :=
  (∀ t, behind.1 = .running t → (line behind.2.permit).head? = some n) ∧
    ∀ m ≠ n, (line before.permit).head? = some m → (line behind.2.permit).head? = some m

/-- The line is kept by a turn of the initializer of the caller who stands first. -/
theorem Task.Works.keepsLine {t : Task σ ε α} {cell : Cell π σ α}
    {behind : Caller σ ε α × Cell π σ α} (h : t.Works p cell behind)
    (hfirst : (line cell.permit).head? = some n) : KeepsLine line n cell behind := by
  refine ⟨?_, ?_⟩
  · intro t' hrunning
    cases h with
    | continues => exact hfirst
    | fails | succeeds => cases hrunning
  · intro m hm hother
    exact absurd (Option.some.inj (hother.symm.trans hfirst)) hm

/-- The line is kept by a turn that runs no initializer. -/
theorem keepsLine_idle {c : Caller σ ε α} (hc : ∀ t, c ≠ .running t) (cell : Cell π σ α) :
    KeepsLine line n cell (c, cell) :=
  ⟨fun t hrunning => absurd hrunning (hc t), fun _ _ hother => hother⟩

/-- The line is kept by a turn of a caller who waits. -/
theorem keepsLine_waiting (hp : p.Fifo line) (t : Task σ ε α) (cell : Cell π σ α) :
    KeepsLine line n cell ((Caller.waiting t).turn p n cell) := by
  cases hvalue : cell.value with
  | some a =>
    unfold Caller.turn
    simp only [hvalue]
    exact keepsLine_idle (by simp) cell
  | none =>
    by_cases hfirst : (line cell.permit).head? = some n
    · rw [Caller.turn_first hp hvalue hfirst]
      exact (t.work_works p cell).keepsLine hfirst
    · rw [Caller.turn_waiting hp hvalue hfirst]
      exact keepsLine_idle (by simp) cell

/-- The line is kept by the turn of any caller. -/
theorem keepsLine_turn (hp : p.Fifo line) (c : Caller σ ε α) (cell : Cell π σ α)
    (hfirst : ∀ t, c = .running t → (line cell.permit).head? = some n) :
    KeepsLine line n cell (c.turn p n cell) := by
  cases c with
  | answered r => exact keepsLine_idle (by simp) cell
  | running t => exact (t.work_works p cell).keepsLine (hfirst t rfl)
  | waiting t => exact keepsLine_waiting hp t cell
  | arriving t =>
    cases hvalue : cell.value with
    | some a =>
      unfold Caller.turn
      simp only [hvalue]
      exact keepsLine_idle (by simp) cell
    | none =>
      rw [Caller.turn_arriving p n hvalue]
      obtain ⟨hrunning, hothers⟩ :=
        keepsLine_waiting (n := n) hp t { cell with permit := p.ask n cell.permit }
      refine ⟨hrunning, ?_⟩
      intro m hm hother
      apply hothers m hm
      -- Who asks goes to the end of the line.
      dsimp only
      rw [hp.ask, List.head?_append, hother]
      rfl

/-- Whoever takes a turn, those with an initializer under way stand first. -/
theorem Group.Exclusive.turn (hp : p.Fifo line) (h : g.Exclusive line) (n : ℕ) :
    (g.turn p n).Exclusive line := by
  cases hget : g.callers[n]? with
  | none =>
    rw [Group.turn_of_length_le (List.getElem?_eq_none_iff.mp hget)]
    exact h
  | some c =>
    obtain ⟨hrunning, hothers⟩ := keepsLine_turn (n := n) hp c g.cell
      fun t ht => h n t (hget.trans (congrArg some ht))
    unfold Group.turn
    rw [hget]
    intro m t hm
    dsimp only at hm ⊢
    by_cases hmn : n = m
    · subst hmn
      have hlt : n < g.callers.length := (List.getElem?_eq_some_iff.mp hget).1
      rw [List.getElem?_set_self hlt] at hm
      exact hrunning t (Option.some.inj hm)
    · rw [List.getElem?_set_ne hmn] at hm
      exact hothers m (Ne.symm hmn) (h m t hm)

/-- Whoever takes turns, and in whatever order, no two initializers are under way at a time. -/
theorem running_unique (hp : p.Fifo line) (tasks : List (Task σ ε α)) (value : Option α)
    (world : σ) (schedule : List ℕ) {m n : ℕ} {t t' : Task σ ε α}
    (hm : ((Group.arriving p tasks value world).turns p schedule).callers[m]? = some (.running t))
    (hn : ((Group.arriving p tasks value world).turns p schedule).callers[n]? = some (.running t')) :
    m = n := by
  have hstart : (Group.arriving p tasks value world).Exclusive line := by
    intro n t ht
    simp [Group.arriving] at ht
  have hexclusive : ∀ (schedule : List ℕ) (g : Group π σ ε α), g.Exclusive line →
      (g.turns p schedule).Exclusive line := by
    intro schedule
    induction schedule with
    | nil => exact fun _ h => h
    | cons n schedule ih => exact fun g h => ih (g.turn p n) (h.turn hp n)
  have hbehind := hexclusive schedule _ hstart
  exact Option.some.inj ((hbehind m t hm).symm.trans (hbehind n t' hn))

end exclusion

end CodeTidy.Memo
