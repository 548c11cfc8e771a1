/-!
# Values that are set up once

A memo holds values that are costly to set up, each under its key. A value is set up when it is
first asked for. If that fails, the cell of the key stays empty and the next request tries again.

Setting a value up may change the world around it, so an initializer takes the world along.
-/

namespace CodeTidy

/-- Sets a value up, or fails, and changes the world on the way. -/
abbrev Initializer (σ ε α : Type) := σ → Except ε α × σ

/-- The cells of the keys that were asked for. A cell is empty until its value has been set up. -/
structure Memo (κ α : Type) where
  cells : List (κ × Option α) := []
  /-- No key has two cells. -/
  distinct : (cells.map Prod.fst).Nodup := by simp

namespace Memo

variable {κ α σ ε : Type} [DecidableEq κ]

/-- The value under a key, if it has been set up. -/
def get? (m : Memo κ α) (key : κ) : Option α := (m.cells.lookup key).join

/-- The number of values that have been set up. -/
def count (m : Memo κ α) : Nat := m.cells.countP (·.2.isSome)

/-- Gives a key a cell, if it has none. -/
def enter (m : Memo κ α) (key : κ) : Memo κ α :=
  if h : key ∈ m.cells.map Prod.fst then m
  else
    { cells := m.cells ++ [(key, none)]
      distinct := by
        rw [List.map_append, List.nodup_append]
        refine ⟨m.distinct, by simp, ?_⟩
        intro k hk k' hk' heq
        obtain rfl : k' = key := by simpa using hk'
        exact h (heq ▸ hk) }

/-- Puts a value in the cell of a key. -/
def fill (m : Memo κ α) (key : κ) (a : α) : Memo κ α where
  cells := m.cells.map fun (k, v) => (k, if k = key then some a else v)
  distinct := by
    rw [List.map_map]
    exact m.distinct

/-- Drops every cell. -/
def clear (_ : Memo κ α) : Memo κ α := {}

/-- The value under a key, which is set up if there is none yet. -/
def obtain (m : Memo κ α) (key : κ) (init : Initializer σ ε α) (world : σ) :
    Except ε α × Memo κ α × σ :=
  let m := m.enter key
  match m.get? key with
  | some a => (.ok a, m, world)
  | none =>
    match init world with
    | (.ok a, world) => (.ok a, m.fill key a, world)
    | (.error e, world) => (.error e, m, world)

end Memo

end CodeTidy
