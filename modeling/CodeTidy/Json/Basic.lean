/-!
# JSON values

Members of an object keep the order in which their keys first came, and a key occurs once: a
later value for the same key takes the place of the earlier one.
-/

namespace CodeTidy

/-- A JSON number: an integer of 64 bits with or without sign, or a floating-point number. -/
inductive Json.Number where
  | int (value : Int)
  | real (value : Float)

/-- A JSON value. -/
inductive Json where
  | null
  | bool (value : Bool)
  | num (value : Json.Number)
  | str (value : String)
  | arr (items : List Json)
  | obj (members : List (String × Json))

namespace Json

instance : Inhabited Json := ⟨.null⟩

/-- An integer. -/
def ofInt (n : Int) : Json := .num (.int n)

/-- A natural number. -/
def ofNat (n : Nat) : Json := .num (.int n)

/-- Sets a key: in its place if it is there, and at the end otherwise. -/
def setMember {α : Type} (key : String) (value : α) : List (String × α) → List (String × α)
  | [] => [(key, value)]
  | (k, v) :: rest => if k == key then (k, value) :: rest else (k, v) :: setMember key value rest

/-- The value of a key of an object. -/
def get? : Json → String → Option Json
  | .obj members, key => members.lookup key
  | _, _ => none

end Json

end CodeTidy
