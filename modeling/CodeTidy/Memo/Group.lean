import CodeTidy.Memo.Basic

/-!
# Callers that ask together

Several callers may ask for the same value before it is set up. They take turns, and each brings an
initializer of its own, which may need several turns. One caller at a time holds the permit to run
its initializer, and the others wait. When the value is there everyone who waits gets it, and when
an initializer fails its caller gets the failure and gives the permit back.

Who gets a permit that is given back is not said here: a `Permit` is whatever can be asked for and
given back.
-/

namespace CodeTidy.Memo

/-- A permit for one at a time, with states of type `π`. Callers go by their numbers. -/
structure Permit (π : Type) where
  /-- Nobody has asked for the permit. -/
  free : π
  /-- A caller asks for the permit. It holds it at once if it is free, and waits otherwise. -/
  ask : Nat → π → π
  /-- Does the caller hold the permit? -/
  held : Nat → π → Bool
  /-- The holder gives the permit back. -/
  release : π → π

/-- The permit that goes to those who wait in the order in which they came. The states are the
lines of those who have asked, and the first one holds it. -/
def Permit.inLine : Permit (List Nat) where
  free := []
  ask n line := line ++ [n]
  held n line := line.head? == some n
  release := List.tail

/-- An initializer that needs turns: what it does on those before the last one, and on the last. -/
structure Task (σ ε α : Type) where
  turns : List (σ → σ) := []
  finish : Initializer σ ε α

/-- A caller, with its initializer as far as it is still to run. -/
inductive Caller (σ ε α : Type) where
  /-- The caller has not had its first turn. -/
  | arriving (task : Task σ ε α)
  /-- The caller waits for the permit or the value. -/
  | waiting (task : Task σ ε α)
  /-- The initializer of the caller has started and has not ended. -/
  | running (task : Task σ ε α)
  /-- The caller has its answer. -/
  | answered (answer : Except ε α)

/-- What the callers for one value share. -/
structure Cell (π σ α : Type) where
  value : Option α
  permit : π
  world : σ

/-- The callers for one value, in the order of their numbers, and what they share. -/
structure Group (π σ ε α : Type) where
  callers : List (Caller σ ε α)
  cell : Cell π σ α

variable {κ α σ ε π : Type}

/-- All turns of an initializer, one behind the other. -/
def Task.run (t : Task σ ε α) : Initializer σ ε α := fun world =>
  t.finish (t.turns.foldl (fun world turn => turn world) world)

/-- An initializer that does nothing on a first turn and all its work on a second. -/
def Task.yielding (init : Initializer σ ε α) : Task σ ε α := { turns := [id], finish := init }

/-- The next turn of the initializer of the caller who holds the permit. -/
def Task.work (p : Permit π) (t : Task σ ε α) (cell : Cell π σ α) :
    Caller σ ε α × Cell π σ α :=
  match t.turns with
  | turn :: turns => (.running { t with turns }, { cell with world := turn cell.world })
  | [] =>
    match t.finish cell.world with
    | (.ok a, world) => (.answered (.ok a), { cell with value := some a, world })
    | (.error e, world) =>
      (.answered (.error e), { cell with permit := p.release cell.permit, world })

/-- The turn of caller number `n`. -/
def Caller.turn (p : Permit π) (n : Nat) (c : Caller σ ε α) (cell : Cell π σ α) :
    Caller σ ε α × Cell π σ α :=
  match c with
  | .answered _ => (c, cell)
  | .running t => t.work p cell
  | .waiting t =>
    match cell.value with
    | some a => (.answered (.ok a), cell)
    | none => if p.held n cell.permit then t.work p cell else (c, cell)
  | .arriving t =>
    match cell.value with
    | some a => (.answered (.ok a), cell)
    | none =>
      let cell := { cell with permit := p.ask n cell.permit }
      if p.held n cell.permit then t.work p cell else (.waiting t, cell)

/-- The answer of a caller who has one. -/
def Caller.answer? : Caller σ ε α → Option (Except ε α)
  | .answered r => some r
  | _ => none

namespace Group

/-- Callers who come with these initializers, before their first turns. -/
def arriving (p : Permit π) (tasks : List (Task σ ε α)) (value : Option α) (world : σ) :
    Group π σ ε α where
  callers := tasks.map .arriving
  cell := ⟨value, p.free, world⟩

/-- The turn of the caller with a number, if there is one. -/
def turn (p : Permit π) (g : Group π σ ε α) (n : Nat) : Group π σ ε α :=
  match g.callers[n]? with
  | some c =>
    let (c, cell) := c.turn p n g.cell
    ⟨g.callers.set n c, cell⟩
  | none => g

/-- Turns of the callers with these numbers. -/
def turns (p : Permit π) (g : Group π σ ε α) (schedule : List Nat) : Group π σ ε α :=
  schedule.foldl (turn p) g

/-- Some rounds of turns, in each of which everyone has one turn in the order of the numbers. -/
def rounds (p : Permit π) : Nat → Group π σ ε α → Group π σ ε α
  | 0, g => g
  | k + 1, g => rounds p k (g.turns p (List.range g.callers.length))

end Group

variable [DecidableEq κ]

/-- How many turns tasks take in all: one for each of their turns, and one to finish. -/
def Task.turnsOf (tasks : List (Task σ ε α)) : Nat :=
  tasks.foldr (fun t n => t.turns.length + 1 + n) 0

/-- The answers to callers who ask for the value under `key` together, in their order. In every
round at least one turn of an initializer is taken while someone has no answer, so as many rounds
as there are turns are enough. -/
def together (p : Permit π) (m : Memo κ α) (key : κ) (tasks : List (Task σ ε α)) (world : σ) :
    List (Except ε α) × Memo κ α × σ :=
  let m := if tasks.isEmpty then m else m.enter key
  let found := m.get? key
  let g := (Group.arriving p tasks found world).rounds p (Task.turnsOf tasks)
  let m := match found, g.cell.value with
    | none, some a => m.fill key a
    | _, _ => m
  (g.callers.filterMap Caller.answer?, m, g.cell.world)

/-- The answers to callers who ask together, wait in line for the permit and let the others have a
turn before they start to work. -/
def join (m : Memo κ α) (key : κ) (inits : List (Initializer σ ε α)) (world : σ) :
    List (Except ε α) × Memo κ α × σ :=
  m.together .inLine key (inits.map Task.yielding) world

end CodeTidy.Memo
