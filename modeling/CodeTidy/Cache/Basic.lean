/-!
# A bounded store of results

The store holds results under their keys in the order in which they came in, and when it is full
the oldest makes room. Reading a result does not protect it, and writing a key again keeps its
place. A store of capacity zero holds nothing.
-/

namespace CodeTidy

/-- What a cache has counted. Clearing the cache leaves the counters alone. -/
structure Cache.Stats where
  hits : Nat := 0
  misses : Nat := 0
  writes : Nat := 0
  evictions : Nat := 0
deriving DecidableEq

/-- The share of look-ups that hit, in percent. -/
def Cache.Stats.hitRate (s : Cache.Stats) : Float :=
  let total := s.hits + s.misses
  if total == 0 then 0 else Float.ofNat s.hits / Float.ofNat total * 100

/-- A bounded store of texts under keys, the oldest entry first. -/
structure Cache (κ : Type) where
  capacity : Nat
  entries : List (κ × String) := []
  stats : Cache.Stats := {}

namespace Cache

variable {κ : Type} [DecidableEq κ]

/-- The number of results kept where nothing else is said. -/
def usualCapacity : Nat := 50

/-- The result under a key. -/
def find? (c : Cache κ) (key : κ) : Option String := c.entries.lookup key

/-- Is there a result under the key? -/
def contains (c : Cache κ) (key : κ) : Bool := (c.find? key).isSome

/-- The number of results held. -/
def size (c : Cache κ) : Nat := c.entries.length

/-- Looks a key up and counts the hit or the miss. -/
def get (c : Cache κ) (key : κ) : Option String × Cache κ :=
  match c.find? key with
  | some text => (some text, { c with stats := { c.stats with hits := c.stats.hits + 1 } })
  | none => (none, { c with stats := { c.stats with misses := c.stats.misses + 1 } })

/-- The entries with another text under `key`. -/
def replace (key : κ) (text : String) : List (κ × String) → List (κ × String)
  | [] => []
  | (k, t) :: rest => if k = key then (k, text) :: rest else (k, t) :: replace key text rest

/-- Stores a result. Entries make room from the oldest on until there is place for it. -/
def insert (c : Cache κ) (key : κ) (text : String) : Cache κ :=
  if c.capacity = 0 then c
  else if c.contains key then { c with entries := replace key text c.entries }
  else
    let surplus := c.size + 1 - c.capacity
    { c with
      entries := c.entries.drop surplus ++ [(key, text)]
      stats := { c.stats with
        writes := c.stats.writes + 1
        evictions := c.stats.evictions + surplus } }

/-- Drops every result. -/
def clear (c : Cache κ) : Cache κ := { c with entries := [] }

end Cache

end CodeTidy
