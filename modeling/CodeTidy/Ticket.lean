/-!
# Tickets

A caller whose requests may overlap takes a ticket for each of them, and drops an answer whose
ticket is no longer the latest.
-/

namespace CodeTidy

/-- The number of tickets issued, which is the number on the latest. -/
structure Tickets where
  latest : Nat := 0
deriving DecidableEq

namespace Tickets

/-- Issues a ticket. The first one has the number one. -/
def next (t : Tickets) : Nat × Tickets := (t.latest + 1, ⟨t.latest + 1⟩)

/-- Has no ticket been issued after this one? -/
def isLatest (t : Tickets) (ticket : Nat) : Bool := t.latest == ticket

end Tickets

end CodeTidy
