import CodeTidy.Configuration.Basic

/-!
# Finding a configuration

The configuration for a directory is the file of the nearest directory at or above it that has
one. The search ends at the first repository, whose own file still counts, and after a hundred
directories.
-/

namespace CodeTidy.Configuration

/-- A directory: its components, the innermost first. -/
abbrev Directory := List String

/-- The number of directories that are looked at. -/
def searchDepth : Nat := 100

/-- The nearest of `depth` directories from `d` upward that has a configuration, up to the first
that is a repository. -/
def nearest {m : Type → Type} [Monad m] (hasFile isRepository : Directory → m Bool) :
    Nat → Directory → m (Option Directory)
  | 0, _ => pure none
  | depth + 1, d => do
    if ← hasFile d then return some d
    if ← isRepository d then return none
    match d with
    | [] => return none
    | _ :: parent => nearest hasFile isRepository depth parent

/-- The directory whose configuration holds for `start`. -/
def discover {m : Type → Type} [Monad m] (hasFile isRepository : Directory → m Bool)
    (start : Directory) : m (Option Directory) :=
  nearest hasFile isRepository searchDepth start

end CodeTidy.Configuration
