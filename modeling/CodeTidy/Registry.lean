import CodeTidy.Backend.Basic
import CodeTidy.Language

/-!
# The registry of backends

A language is bound to at most one backend. Registering a backend binds all languages that it
declares to it, so the latest wins, and registering under a name that is taken replaces the
backend of that name with all its bindings. A fallback is bound only to the languages that have no
backend yet.
-/

namespace CodeTidy

/-- The registered backends, and for each bound language the name of its backend. Bindings are
ascending by language. -/
structure Registry (σ : Type) where
  backends : List (Backend σ) := []
  bindings : List (String × String) := []

namespace Registry

variable {σ : Type}

/-- Binds a language to a backend, whatever it was bound to. -/
def bind (language id : String) : List (String × String) → List (String × String)
  | [] => [(language, id)]
  | (l, i) :: rest =>
    if language < l then (language, id) :: (l, i) :: rest
    else if language = l then (l, id) :: rest
    else (l, i) :: bind language id rest

/-- Binds a language to a backend if it is not bound yet. -/
def bindIfFree (language id : String) (bindings : List (String × String)) :
    List (String × String) :=
  if (bindings.lookup language).isSome then bindings else bind language id bindings

/-- Removes a backend and its bindings. -/
def remove (r : Registry σ) (id : String) : Registry σ where
  backends := r.backends.filter (·.id != id)
  bindings := r.bindings.filter (·.2 != id)

/-- The canonical names of the languages that a backend declares. -/
def declared (b : Backend σ) : List String := b.profile.languages.map Language.normalize

/-- Registers a backend, which takes over the languages that it declares. -/
def register (r : Registry σ) (b : Backend σ) : Registry σ :=
  let r := r.remove b.id
  { backends := r.backends ++ [b]
    bindings := (declared b).foldl (fun bs l => bind l b.id bs) r.bindings }

/-- Registers a backend for the languages that are free. -/
def registerFallback (r : Registry σ) (b : Backend σ) : Registry σ :=
  let r := r.remove b.id
  { backends := r.backends ++ [b]
    bindings := (declared b).foldl (fun bs l => bindIfFree l b.id bs) r.bindings }

/-- The backend of a name. -/
def named? (r : Registry σ) (id : String) : Option (Backend σ) := r.backends.find? (·.id == id)

/-- The backend bound to a language, which may go by any of its names. -/
def backend? (r : Registry σ) (language : String) : Option (Backend σ) :=
  (r.bindings.lookup (Language.normalize language)).bind r.named?

/-- Is a backend bound to the language? -/
def isSupported (r : Registry σ) (language : String) : Bool := (r.backend? language).isSome

/-- The languages with a binding, ascending. -/
def languages (r : Registry σ) : List String := r.bindings.map (·.1)

/-- Puts a backend into a list that is ascending by name. -/
def insertByName (b : Backend σ) : List (Backend σ) → List (Backend σ)
  | [] => [b]
  | c :: cs => if b.id < c.id then b :: c :: cs else c :: insertByName b cs

/-- The registered backends, ascending by name. -/
def byName (r : Registry σ) : List (Backend σ) := r.backends.foldr insertByName []

/-- Formats code with the backend bound to its language. -/
def format (r : Registry σ) (code language : String) (settings : Settings) (world : σ) :
    Outcome × σ :=
  let language := Language.normalize language
  match r.backend? language with
  | some b => b.answer ⟨code, language, settings⟩ world
  | none => (.failed code (.unsupported language), world)

end Registry

end CodeTidy
