/-!
# Limiting requests

Each caller has a window of time, which opens with its first request. Within a window a fixed
number of requests is admitted, and the first request later than its end opens the next one.
Callers do not see each other. Windows that are over make no difference any more, and they are
forgotten once there are many.

Times are in milliseconds.
-/

namespace CodeTidy

/-- How many requests are admitted in a window, and how long a window is. Zero requests stand for
no limit. -/
structure Quota where
  requests : Nat := 10
  windowMs : Nat := 1000
deriving DecidableEq

/-- The window of a caller: when it opened and how many requests it has admitted. -/
structure Window where
  opened : Nat
  admitted : Nat
deriving DecidableEq

/-- The windows of all callers under a quota. -/
structure Limiter where
  quota : Quota := {}
  windows : List (String × Window) := []

namespace Limiter

/-- Windows are looked through for finished ones once there are more of them than this. -/
def pruneAbove : Nat := 1024

/-- Is a window still open at a time? -/
def isOpen (q : Quota) (now : Nat) (w : Window) : Bool := now - w.opened ≤ q.windowMs

/-- Sets the window of a caller. -/
def setWindow (caller : String) (w : Window) : List (String × Window) → List (String × Window)
  | [] => [(caller, w)]
  | (c, v) :: rest => if c = caller then (c, w) :: rest else (c, v) :: setWindow caller w rest

/-- The windows without the finished ones, if there are many. -/
def pruned (l : Limiter) (now : Nat) : List (String × Window) :=
  if pruneAbove < l.windows.length then l.windows.filter fun (_, w) => isOpen l.quota now w
  else l.windows

/-- The window in which a request of the caller falls. -/
def windowAt (q : Quota) (now : Nat) (found : Option Window) : Window :=
  match found with
  | some w => if isOpen q now w then w else ⟨now, 0⟩
  | none => ⟨now, 0⟩

/-- Counts a request of a caller. The first component tells whether it is admitted. -/
def check (l : Limiter) (now : Nat) (caller : String) : Bool × Limiter :=
  if l.quota.requests = 0 then (true, l)
  else
    let windows := l.pruned now
    let w := windowAt l.quota now (windows.lookup caller)
    if l.quota.requests ≤ w.admitted then
      (false, { l with windows := setWindow caller w windows })
    else
      (true, { l with windows := setWindow caller { w with admitted := w.admitted + 1 } windows })

/-- The number of callers with a window. -/
def tracked (l : Limiter) : Nat := l.windows.length

/-- Forgets all windows. -/
def reset (l : Limiter) : Limiter := { l with windows := [] }

end Limiter

end CodeTidy
