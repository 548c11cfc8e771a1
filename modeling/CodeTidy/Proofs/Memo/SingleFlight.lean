import CodeTidy.Proofs.Memo.Cells
import CodeTidy.Proofs.Memo.Rounds

/-!
# A value is set up once

`single_flight` says what callers can rely on, whatever was done to a memo before. Callers who ask
together for a value that is not there are served in their order: one initializer after the other
runs, up to the first that succeeds. Once a value is there no initializer for it runs, and everybody
who asks gets just this value, until the memo is cleared.
-/

namespace CodeTidy.Memo

variable {κ α σ ε π : Type}

/-- What is done to a memo. -/
inductive Op (κ σ ε α : Type) where
  /-- A caller asks for the value under a key. -/
  | obtain (key : κ) (task : Task σ ε α)
  /-- Callers ask for it together. -/
  | together (key : κ) (tasks : List (Task σ ε α))
  /-- Somebody looks whether it is there. -/
  | get (key : κ)
  /-- Every cell is dropped. -/
  | clear

/-- What is said to those who do it. -/
inductive Reply (ε α : Type) where
  | answers (answers : List (Except ε α))
  | found (value : Option α)
  | cleared

/-- The key that it is about. -/
def Op.key? : Op κ σ ε α → Option κ
  | .obtain key _ | .together key _ | .get key => some key
  | .clear => none

/-- The reply in which everybody gets the value. -/
def Op.allGet (a : α) : Op κ σ ε α → Reply ε α
  | .obtain _ _ => .answers [.ok a]
  | .together _ tasks => .answers (tasks.map fun _ => .ok a)
  | .get _ => .found (some a)
  | .clear => .cleared

variable [DecidableEq κ]

/-- The reply, and the memo and the world behind it. -/
def Op.run (p : Permit π) (op : Op κ σ ε α) (m : Memo κ α) (world : σ) :
    Reply ε α × Memo κ α × σ :=
  match op with
  | .obtain key task =>
    let (r, m, world) := m.obtain key task.run world
    (.answers [r], m, world)
  | .together key tasks =>
    let (rs, m, world) := m.together p key tasks world
    (.answers rs, m, world)
  | .get key => (.found (m.get? key), m, world)
  | .clear => (.cleared, m.clear, world)

/-- The memo and the world behind all of it. -/
def behind (p : Permit π) : List (Op κ σ ε α) → Memo κ α → σ → Memo κ α × σ
  | [], m, world => (m, world)
  | op :: ops, m, world => behind p ops (op.run p m world).2.1 (op.run p m world).2.2

section group

variable {p : Permit π} {line : π → List ℕ} {m : Memo κ α} {key : κ} {a : α}

/-- The memo in which a key has a cell, with a value in it if there is one. -/
def keep (m : Memo κ α) (key : κ) : Option α → Memo κ α
  | some a => (m.enter key).fill key a
  | none => m.enter key

/-- What is found behind a value that is kept. -/
theorem get?_keep (h : m.get? key = none) (value : Option α) (other : κ) :
    (m.keep key value).get? other = if other = key then value else m.get? other := by
  cases value with
  | none =>
    split_ifs with hother
    · rw [hother]
      exact (get?_enter m key key).trans h
    · exact get?_enter m key other
  | some a =>
    have hfill := get?_fill (mem_enter m key) a other
    rw [get?_enter] at hfill
    exact hfill

/-- When nobody asks, nothing happens. -/
theorem together_nil (p : Permit π) (m : Memo κ α) (key : κ) (world : σ) :
    m.together p key ([] : List (Task σ ε α)) world = ([], m, world) := by
  unfold together
  cases h : m.get? key <;> simp [h, Group.rounds, Group.arriving, Task.turnsOf]

/-- Callers who ask together for a value that is not there are served in their order, and what they
come to is kept. -/
theorem together_missing (hp : p.Fifo line) (h : m.get? key = none) {tasks : List (Task σ ε α)}
    (htasks : tasks ≠ []) (world : σ) :
    ∃ answers value world', Served tasks world answers value world' ∧
      m.together p key tasks world = (answers, m.keep key value, world') := by
  have hempty : tasks.isEmpty = false := by simpa using htasks
  have hserved := Group.rounds_served hp tasks world Nat.le.refl
  refine ⟨_, _, _, hserved, ?_⟩
  unfold together
  simp only [hempty, Bool.false_eq_true, if_false, get?_enter, h]
  generalize (Group.arriving p tasks none world).rounds p _ = g
  cases g.cell.value <;> rfl

/-- Callers who ask together for a value that is there get it, and nothing changes. -/
theorem together_found (p : Permit π) (h : m.get? key = some a) (tasks : List (Task σ ε α))
    (world : σ) : m.together p key tasks world = (tasks.map fun _ => .ok a, m, world) := by
  obtain ⟨hanswers, hworld⟩ := Group.rounds_found p tasks a world Nat.le.refl
  unfold together
  simp only [enter_of_get? h, ite_self, h, hanswers, hworld]

/-- Nothing changes under the other keys. -/
theorem together_other (hp : p.Fifo line) (m : Memo κ α) (key : κ) (tasks : List (Task σ ε α))
    (world : σ) {other : κ} (hother : other ≠ key) :
    (m.together p key tasks world).2.1.get? other = m.get? other := by
  cases h : m.get? key with
  | some a => rw [together_found p h]
  | none =>
    by_cases htasks : tasks = []
    · rw [htasks, together_nil]
    · obtain ⟨answers, value, world', -, htogether⟩ := together_missing hp h htasks world
      rw [htogether, get?_keep h, if_neg hother]

/-- A caller who comes alone is served as if it came together with nobody else. -/
theorem obtain_eq_together (hp : p.Fifo line) (m : Memo κ α) (key : κ) (t : Task σ ε α)
    (world : σ) :
    m.together p key [t] world =
      ([(m.obtain key t.run world).1], (m.obtain key t.run world).2) := by
  cases h : m.get? key with
  | some a => rw [together_found p h, obtain_found h, List.map_singleton]
  | none =>
    obtain ⟨answers, value, world', hserved, htogether⟩ :=
      together_missing hp h (List.cons_ne_nil t []) world
    rw [htogether, obtain_missing h]
    cases hserved with
    | failed hrun hrest =>
      cases hrest
      rw [hrun]
      rfl
    | succeeded hrun =>
      rw [hrun]
      rfl

/-- Once a value is there, everybody who asks for it gets it and nothing changes. -/
theorem Op.run_found (p : Permit π) (h : m.get? key = some a) {op : Op κ σ ε α}
    (hkey : op.key? = some key) (world : σ) : op.run p m world = (op.allGet a, m, world) := by
  cases op with
  | obtain _ task =>
    obtain rfl := Option.some.inj hkey
    simp only [Op.run, obtain_found h, allGet]
  | together _ tasks =>
    obtain rfl := Option.some.inj hkey
    simp only [Op.run, together_found p h, allGet]
  | get _ =>
    obtain rfl := Option.some.inj hkey
    simp only [Op.run, h, allGet]
  | clear => cases hkey

/-- What is done with other keys changes nothing under a key. -/
theorem Op.run_other (hp : p.Fifo line) (m : Memo κ α) {op : Op κ σ ε α}
    (hkey : op.key? ≠ some key) (hclear : op ≠ .clear) (world : σ) :
    (op.run p m world).2.1.get? key = m.get? key := by
  have hother : ∀ k, op.key? = some k → key ≠ k := by
    rintro k hk rfl
    exact hkey hk
  cases op with
  | obtain k task =>
    have htogether := together_other hp m k [task] world (hother k rfl)
    rw [obtain_eq_together hp] at htogether
    exact htogether
  | together k tasks => exact together_other hp m k tasks world (hother k rfl)
  | get k => rfl
  | clear => exact absurd rfl hclear

/-- A value that is there stays until the memo is cleared. -/
theorem behind_found (hp : p.Fifo line) {ops : List (Op κ σ ε α)} (hops : ∀ op ∈ ops, op ≠ .clear)
    (h : m.get? key = some a) (world : σ) : (behind p ops m world).1.get? key = some a := by
  induction ops generalizing m world with
  | nil => exact h
  | cons op ops ih =>
    refine ih (fun op' hop' => hops op' (List.mem_cons_of_mem _ hop')) ?_ _
    by_cases hkey : op.key? = some key
    · rw [Op.run_found p h hkey]
      exact h
    · rw [Op.run_other hp m hkey (hops op List.mem_cons_self)]
      exact h

end group

/-- What callers can rely on, whatever was done to the memo before. If they ask together for a value
that is not there then they are served in their order, as far as the first initializer that
succeeds, and what they come to is kept. At no moment are two initializers under way, whatever turns
were taken. A caller who comes alone is a group of one. Once a value is there no initializer for it
runs, and everybody gets just this value until the memo is cleared. And the values are counted. -/
theorem single_flight {p : Permit π} {line : π → List ℕ} (hp : p.Fifo line) (m : Memo κ α)
    (world : σ) :
    (∀ (key : κ) (tasks : List (Task σ ε α)), m.get? key = none →
      Served tasks world (m.together p key tasks world).1
        ((m.together p key tasks world).2.1.get? key) (m.together p key tasks world).2.2) ∧
    (∀ (key : κ) (tasks : List (Task σ ε α)) (schedule : List ℕ) (i j : ℕ) (t t' : Task σ ε α),
      let g := (Group.arriving p tasks (m.get? key) world).turns p schedule
      g.callers[i]? = some (.running t) → g.callers[j]? = some (.running t') → i = j) ∧
    (∀ (key : κ) (t : Task σ ε α), m.together p key [t] world =
      ([(m.obtain key t.run world).1], (m.obtain key t.run world).2)) ∧
    (∀ (key : κ) (a : α) (ops : List (Op κ σ ε α)) (op : Op κ σ ε α), m.get? key = some a →
      (∀ op ∈ ops, op ≠ .clear) → op.key? = some key →
        op.run p (behind p ops m world).1 (behind p ops m world).2 =
          (op.allGet a, behind p ops m world)) ∧
    (∃ keys : Finset κ, (∀ key, key ∈ keys ↔ (m.get? key).isSome) ∧ m.count = keys.card) ∧
    ∀ key, m.clear.get? key = none := by
  refine ⟨?_, ?_, ?_, ?_, count_eq_card m, get?_clear m⟩
  · intro key tasks h
    by_cases htasks : tasks = []
    · rw [htasks, together_nil, h]
      exact .nobody
    · obtain ⟨answers, value, world', hserved, htogether⟩ := together_missing hp h htasks world
      rw [htogether, get?_keep h, if_pos rfl]
      exact hserved
  · intro key tasks schedule i j t t' g hi hj
    exact running_unique hp tasks (m.get? key) world schedule hi hj
  · exact fun key t => obtain_eq_together hp m key t world
  · intro key a ops op h hops hkey
    exact Op.run_found p (behind_found hp hops h world) hkey _

/-- Three initializers, which write their numbers in a log on every turn. The first one fails. -/
def flaky : List (Task (List ℕ) String ℕ) :=
  [{ turns := [(· ++ [1])], finish := fun log => (.error "down", log ++ [1]) },
    { turns := [(· ++ [2])], finish := fun log => (.ok 7, log ++ [2]) },
    { finish := fun log => (.ok 8, log ++ [3]) }]

/-- The first caller gets its own failure, the second one and the third one get the value of the
second, and the third initializer never runs. Those who come later run nothing. -/
theorem single_flight_flaky :
    Permit.inLine.Fifo id ∧ ({} : Memo String ℕ).get? "k" = none ∧
      Served flaky [] [.error "down", .ok 7, .ok 7] (some 7) [1, 1, 2, 2] ∧
      ∀ m : Memo String ℕ, m.get? "k" = some 7 →
        (Op.together "k" flaky).run .inLine m [] = (.answers [.ok 7, .ok 7, .ok 7], m, []) := by
  refine ⟨Permit.inLine_fifo, rfl, ?_, ?_⟩
  · have hserved := (single_flight Permit.inLine_fifo ({} : Memo String ℕ) []).1 "k" flaky rfl
    exact hserved
  · intro m hm
    exact (single_flight Permit.inLine_fifo m []).2.2.2.1 "k" 7 [] (.together "k" flaky) hm (by simp)
      rfl

end CodeTidy.Memo
