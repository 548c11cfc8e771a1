import CodeTidy.Decimal.Shortest
import CodeTidy.Json.Basic
import CodeTidy.Text.Quoted

/-!
# Untyped data and the faults of its shape

Settings and configurations arrive as untyped values, written in JSON or in TOML. A `Datum` is
such a value whichever notation it came from. A reader that expects another shape answers with a
`Datum.Fault`, which names the cause and the place of the value within the whole; the words for a
cause depend on the notation in a few spots only.
-/

namespace CodeTidy

/-- An untyped value of a settings bag or a configuration. -/
inductive Datum where
  | null
  | bool (value : Bool)
  | int (value : Int)
  | real (value : Float)
  | str (value : String)
  | list (items : List Datum)
  | map (members : List (String × Datum))
  /-- A date, a time or both, which only TOML has. -/
  | moment (text : String)
  /-- A number that no numeric type holds, which only TOML has. -/
  | beyond (whole : Bool)

namespace Datum

instance : Inhabited Datum := ⟨.null⟩

/-- The notation that a datum was written in. -/
inductive Notation where
  | json
  | toml
deriving DecidableEq

/-- What a message says of a value. -/
inductive Shape where
  | null
  | bool (value : Bool)
  | int (value : Int)
  | wide (value : Int)
  | real (value : Float)
  | str (value : String)
  | list
  | map

/-- The shape of a value. An integer beyond 64 bits is told apart. -/
def shape : Datum → Shape
  | .null => .null
  | .bool b => .bool b
  | .int n => if -0x8000000000000000 ≤ n && n < 0x10000000000000000 then .int n else .wide n
  | .real x => .real x
  | .str s => .str s
  | .list _ => .list
  | .map _ => .map
  | .moment _ => .map
  | .beyond _ => .null

/-- The shape in words. -/
def Shape.text (how : Notation) : Shape → String
  | .null => "null"
  | .bool true => "boolean `true`"
  | .bool false => "boolean `false`"
  | .int n => "integer `" ++ toString n ++ "`"
  | .wide n =>
    let type := if n < 0x80000000000000000000000000000000 then "i128" else "u128"
    "integer `" ++ toString n ++ "` as " ++ type
  | .real x =>
    match how with
    | .json => "floating point `" ++ Decimal.number ['+'] x ++ "`"
    | .toml => "floating point `" ++ Decimal.plain ".0" x ++ "`"
  | .str s => "string " ++ Text.quoted s
  | .list => "sequence"
  | .map => "map"

/-- Why a value does not have the shape expected of it. -/
inductive Cause where
  | wrongType (found : Shape) (expected : String)
  | wrongValue (found : Shape) (expected : String)
  | unknownVariant (name : String) (known : List String)
  | unknownField (name : String) (known : List String)
  | duplicateField (name : String)
  | indentOutOfRange (width : Nat)
  | indentNegative (width : Int)
  | indentNumber (width : Float)
  | indentText (width : String)
  | notStringOrTable
  | notOneMember (more : Bool)
  | notEmptyList
  | notEmptyTable
  | notTable (found : String)
  | overflow (whole : Bool)

/-- The names that a message offers instead of an unknown one. -/
def alternatives : List String → String
  | [a] => "expected `" ++ a ++ "`"
  | [a, b] => "expected `" ++ a ++ "` or `" ++ b ++ "`"
  | names => "expected one of " ++ ", ".intercalate (names.map fun n => "`" ++ n ++ "`")

/-- The cause in words. -/
def Cause.message (how : Notation) : Cause → String
  | .wrongType found expected => "invalid type: " ++ found.text how ++ ", expected " ++ expected
  | .wrongValue found expected => "invalid value: " ++ found.text how ++ ", expected " ++ expected
  | .unknownVariant name known => "unknown variant `" ++ name ++ "`, " ++ alternatives known
  | .unknownField name known => "unknown field `" ++ name ++ "`, " ++ alternatives known
  | .duplicateField name => "duplicate field `" ++ name ++ "`"
  | .indentOutOfRange n =>
    "Indentation must be between 1 and 8 columns or \"tab\", got " ++ toString n
  | .indentNegative n => "negative indentation " ++ toString n
  | .indentNumber x => "invalid indentation " ++ Decimal.plain "" x
  | .indentText s => "invalid indentation \"" ++ s ++ "\""
  | .notStringOrTable => "wanted string or table"
  | .notOneMember true => "wanted exactly 1 element, more than 1 element"
  | .notOneMember false => "wanted exactly 1 element, found 0 elements"
  | .notEmptyList => "expected empty array"
  | .notEmptyTable => "expected empty table"
  | .notTable found => "expected table, found " ++ found
  | .overflow true => "integer number overflowed"
  | .overflow false => "floating-point number overflowed"

/-- One step from a value to a part of it. -/
inductive Step where
  | key (name : String)
  | item (index : Nat)
deriving DecidableEq

/-- The part of a datum that a fault concerns: the value that the steps lead to, or the key that
the last step names. -/
inductive Place where
  | value (path : List Step)
  | key (path : List Step)
deriving DecidableEq

/-- The place seen from the value that holds it under `s`. -/
def Place.under (s : Step) : Place → Place
  | .value path => .value (s :: path)
  | .key path => .key (s :: path)

/-- A value of the wrong shape: the cause and the place. -/
structure Fault where
  cause : Cause
  place : Place := .value []

/-- The fault seen from the value that holds it under `s`. -/
def Fault.under (s : Step) (f : Fault) : Fault := { f with place := f.place.under s }

/-- Fails for a reason that concerns the value as a whole. -/
def fail {α : Type} (cause : Cause) : Except Fault α := .error ⟨cause, .value []⟩

/-- Fails because the value has another shape than expected, or is a number beyond all types. -/
def mismatch {α : Type} (d : Datum) (expected : String) : Except Fault α :=
  match d with
  | .beyond whole => fail (.overflow whole)
  | d => fail (.wrongType d.shape expected)

/-- Reads a part with `read`, so that a fault is placed under `s`. -/
def within {α : Type} (s : Step) (result : Except Fault α) : Except Fault α :=
  match result with
  | .ok a => .ok a
  | .error f => .error (f.under s)

/-- The name of the kind of value in TOML. -/
def kindName : Datum → String
  | .null => "null"
  | .bool _ => "boolean"
  | .int _ => "integer"
  | .real _ => "float"
  | .str _ => "string"
  | .list _ => "array"
  | .map _ => "table"
  | .moment _ => "datetime"
  | .beyond true => "integer"
  | .beyond false => "float"

mutual

/-- Passes over a value that nothing asks for. Only a number beyond all types is at fault. -/
def passOver : Datum → Except Fault Unit
  | .beyond whole => fail (.overflow whole)
  | .list ds => passOverItems 0 ds
  | .map ms => passOverMembers ms
  | _ => .ok ()

/-- Passes over items, the first of which has the given index. -/
def passOverItems (index : Nat) : List Datum → Except Fault Unit
  | [] => .ok ()
  | d :: ds =>
    match passOver d with
    | .error f => .error (f.under (.item index))
    | .ok _ => passOverItems (index + 1) ds

/-- Passes over members. -/
def passOverMembers : List (String × Datum) → Except Fault Unit
  | [] => .ok ()
  | (k, d) :: ms =>
    match passOver d with
    | .error f => .error (f.under (.key k))
    | .ok _ => passOverMembers ms

end

mutual

/-- The datum of a JSON value. -/
def ofJson : Json → Datum
  | .null => .null
  | .bool b => .bool b
  | .num (.int n) => .int n
  | .num (.real x) => .real x
  | .str s => .str s
  | .arr vs => .list (ofItems vs)
  | .obj ms => .map (ofMembers ms)

/-- The data of JSON items. -/
def ofItems : List Json → List Datum
  | [] => []
  | v :: vs => ofJson v :: ofItems vs

/-- The data of JSON members. -/
def ofMembers : List (String × Json) → List (String × Datum)
  | [] => []
  | (k, v) :: ms => (k, ofJson v) :: ofMembers ms

end

/-- A truth value. -/
def toBool : Datum → Except Fault Bool
  | .bool b => .ok b
  | d => d.mismatch "a boolean"

/-- A natural number below `bound`, under the name that messages use for such numbers. -/
def toNatural (bound : Nat) (name : String) : Datum → Except Fault Nat
  | .int n =>
    if n < -0x8000000000000000 || 0x10000000000000000 ≤ n then fail (.wrongType (.wide n) name)
    else if 0 ≤ n && n < bound then .ok n.toNat
    else fail (.wrongValue (.int n) name)
  | d => d.mismatch name

/-- A text. -/
def toText : Datum → Except Fault String
  | .str s => .ok s
  | d => d.mismatch "a string"

/-- One of the named alternatives, written as its name or as an object with the name as its only
key and nothing in it. -/
def toVariant {α : Type} (how : Notation) (known : List (String × α)) (d : Datum) :
    Except Fault α :=
  let byName (name : String) : Except Fault α :=
    match known.lookup name with
    | some a => .ok a
    | none => fail (.unknownVariant name (known.map (·.1)))
  match how, d with
  | _, .str s => byName s
  | .json, .map [(name, inner)] => do
    let a ← byName name
    match inner with
    | .null => return a
    | d => fail (.wrongType d.shape "unit")
  | .json, .map _ => fail (.wrongValue .map "map with a single key")
  | .json, d => fail (.wrongType d.shape "string or map")
  | .toml, .map [(name, inner)] => do
    let a ← match byName name with
      | .ok a => .ok a
      | .error f => .error { f with place := .key [.key name] }
    match inner with
    | .list [] => return a
    | .map [] => return a
    | .list _ => within (.key name) (fail .notEmptyList)
    | .map _ => within (.key name) (fail .notEmptyTable)
    | d => within (.key name) (fail (.notTable d.kindName))
  | .toml, .map [] => fail (.notOneMember false)
  | .toml, .map _ => fail (.notOneMember true)
  | .toml, _ => fail .notStringOrTable

end Datum

end CodeTidy
