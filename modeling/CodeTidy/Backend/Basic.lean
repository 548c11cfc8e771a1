import CodeTidy.Failure
import CodeTidy.Settings.Basic

/-!
# Backends

A backend formats code of the languages that its profile declares. It may keep state, so a call
takes the world of the backends and gives it back changed. A call through `answer` has an outcome
in every case: a backend that is not available is not called, and an error or a breakdown becomes
a failed outcome, which carries the code of the request.
-/

namespace CodeTidy

/-- A request as backends see it: the language canonical, the settings resolved. -/
structure Request where
  code : String
  language : String
  settings : Settings
deriving DecidableEq

/-- What a backend says of itself. -/
structure Profile where
  /-- The name under which the backend is registered. -/
  id : String
  /-- The name for people. -/
  name : String
  /-- The languages declared, by any of their names. -/
  languages : List String
  /-- Does it enforce one style? -/
  isFormatter : Bool := false
  /-- Does it give up the choices of the author? -/
  isOpinionated : Bool := false
  /-- Does it answer malformed code too? -/
  tolerant : Bool := false
deriving DecidableEq

/-- The profile as a JSON object. -/
def Profile.toJson (p : Profile) : Json :=
  .obj [("id", .str p.id), ("name", .str p.name), ("languages", .arr (p.languages.map .str)),
    ("isFormatter", .bool p.isFormatter), ("isOpinionated", .bool p.isOpinionated),
    ("tolerant", .bool p.tolerant)]

/-- How a call of a backend ends. -/
inductive Attempt where
  | formatted (text : String)
  | failed (failure : Failure)
  /-- The backend broke down, and may have left a text behind. -/
  | crashed (detail : Option String)

/-- The end of a call that cannot break down. -/
def Attempt.ofExcept : Except Failure String → Attempt
  | .ok text => .formatted text
  | .error f => .failed f

/-- A backend in a world of type `σ`. -/
structure Backend (σ : Type) where
  profile : Profile
  isAvailable : σ → Bool := fun _ => true
  format : Request → σ → Attempt × σ

/-- What a caller gets: a code, which is the code of the request if it failed. -/
structure Outcome where
  code : String
  failure : Option Failure := none

namespace Outcome

/-- Is the code a formatted one? -/
def isSuccess (o : Outcome) : Bool := o.failure.isNone

/-- The outcome of a request that failed. -/
def failed (code : String) (f : Failure) : Outcome := ⟨code, some f⟩

end Outcome

namespace Backend

variable {σ : Type}

/-- The name under which the backend is registered. -/
def id (b : Backend σ) : String := b.profile.id

/-- The outcome of a call. -/
def answer (b : Backend σ) (r : Request) (world : σ) : Outcome × σ :=
  if !b.isAvailable world then (.failed r.code (.unavailable b.id), world)
  else
    match b.format r world with
    | (.formatted text, world) => (⟨text, none⟩, world)
    | (.failed f, world) => (.failed r.code f, world)
    | (.crashed detail, world) => (.failed r.code (.crashed b.id detail), world)

/-- A backend without state. -/
def pure (profile : Profile) (format : Request → Except Failure String) : Backend σ where
  profile
  format r world := (.ofExcept (format r), world)

end Backend

end CodeTidy
