import CodeTidy.Data.Datum

/-!
# The tree of a TOML document

A document is a table of values, each with the span of text that it comes from. A table is opened
by a header, in passing by a longer header, by dotted keys, or inline, and its origin decides how
it may grow: nothing is ever defined twice.
-/

namespace CodeTidy.Toml

/-- A part of a text, from one byte up to another. -/
structure Span where
  start : Nat
  stop : Nat
deriving DecidableEq

/-- Where a table comes from. -/
inductive Origin where
  /-- A header of its own, or the document itself. -/
  | header
  /-- A header of one of its descendants. -/
  | implied
  /-- Dotted keys. -/
  | dotted
  /-- A table written on one line. -/
  | inlined
deriving DecidableEq

/-- A value. -/
inductive Value where
  /-- A value without parts. -/
  | scalar (datum : Datum)
  /-- An array with the spans of its items. It either consists of tables with headers or is written
  as a value. -/
  | list (ofTables : Bool) (items : List (Span × Value))
  /-- A table: for each key the span of the key, the span of the value, and the value. -/
  | table (origin : Origin) (members : List (String × Span × Span × Value))

/-- The members of a table. -/
abbrev Members := List (String × Span × Span × Value)

/-- A key with its span. -/
structure Key where
  name : String
  span : Span

/-- Changes the last element of a list. -/
def changeLast {α : Type} (f : α → Option α) : List α → Option (List α)
  | [] => none
  | [a] => (f a).map ([·])
  | a :: rest => (changeLast f rest).map (a :: ·)

namespace Value

/-- Changes the value of a key. `none` gives the value of a key that is not there yet, with the
spans of the key and of the value. -/
def change (key : Key) (new : Option (Span × Value)) (f : Span × Value → Option (Span × Value)) :
    Members → Option Members
  | [] => new.map fun (span, v) => [(key.name, key.span, span, v)]
  | (k, keySpan, span, v) :: rest =>
    if k == key.name then (f (span, v)).map fun (span, v) => (k, keySpan, span, v) :: rest
    else (change key new f rest).map ((k, keySpan, span, v) :: ·)

/-- Changes the table that a value holds: the value itself, or the last table of an array of
tables. Values that are written as such hold none. -/
def changeTable (f : Origin → Members → Option Value) : Span × Value → Option (Span × Value)
  | (_, .table .inlined _) => none
  | (span, .table origin members) => (f origin members).map (span, ·)
  | (span, .list true items) =>
    (changeLast (fun (s, v) =>
      match v with
      | .table origin members => (f origin members).map (s, ·)
      | _ => none) items).map (span, .list true ·)
  | _ => none

/-- Goes down a path of keys from a table and changes the table that it leads to. Tables that are
not there yet come from `origin`. Dotted keys do not go through a table with a header. -/
def descend (origin : Origin) (f : Origin → Members → Option Value) :
    List Key → Origin → Members → Option Value
  | [], o, members => f o members
  | key :: path, o, members =>
    let inner (o : Origin) (members : Members) : Option Value :=
      if origin == .dotted && o == .header then none else descend origin f path o members
    let new := (descend origin f path origin []).map (key.span, ·)
    (change key new (changeTable inner) members).map (.table o ·)

/-- Adds a member that is not there yet. -/
def add (key : Key) (span : Span) (v : Value) (o : Origin) (members : Members) : Option Value :=
  (change key (some (span, v)) (fun _ => none) members).map (.table o ·)

/-- Adds the value of a key behind a dotted path. The path has to lead to a table that dotted keys
have opened. -/
def addDotted (path : List Key) (key : Key) (span : Span) (v : Value) (o : Origin)
    (members : Members) : Option Value :=
  descend .dotted (fun o members =>
    if !path.isEmpty && o != .dotted then none else add key span v o members) path o members

/-- Opens the table of a header. It may be there in passing only. -/
def openTable (key : Key) (span : Span) (o : Origin) (members : Members) : Option Value :=
  (change key (some (span, .table .header []))
    (fun
      | (_, .table .implied inner) => some (span, .table .header inner)
      | _ => none) members).map (.table o ·)

/-- Opens another table of an array of tables. -/
def openItem (key : Key) (span : Span) (o : Origin) (members : Members) : Option Value :=
  let item : Span × Value := (span, .table .header [])
  (change key (some (span, .list true [item]))
    (fun
      | (s, .list true items) => some (s, .list true (items ++ [item]))
      | _ => none) members).map (.table o ·)

/-- Changes the table at the top of a document. -/
def atTop (f : Origin → Members → Option Value) : Value → Option Value
  | .table o members => f o members
  | _ => none

/-- Changes the table that a header has opened. -/
def inHeader (path : List Key) (f : Origin → Members → Option Value) : Value → Option Value :=
  atTop (descend .implied f path)

/-- Puts a member into a list that is ascending by key. -/
def insertByKey (key : String) (d : Datum) : List (String × Datum) → List (String × Datum)
  | [] => [(key, d)]
  | (k, e) :: rest =>
    if key < k then (key, d) :: (k, e) :: rest else (k, e) :: insertByKey key d rest

mutual

/-- The value without its spans. Tables are ascending by key. -/
def toDatum : Value → Datum
  | .scalar d => d
  | .list _ items => .list (itemsToData items)
  | .table _ members => .map (membersToData members)

/-- The data of items. -/
def itemsToData : List (Span × Value) → List Datum
  | [] => []
  | (_, v) :: rest => toDatum v :: itemsToData rest

/-- The data of members, ascending by key. -/
def membersToData : List (String × Span × Span × Value) → List (String × Datum)
  | [] => []
  | (k, _, _, v) :: rest => insertByKey k (toDatum v) (membersToData rest)

end

/-- The part of a value that a step leads to, with its span and that of its key. -/
def part? (v : Value) (s : Datum.Step) : Option (Span × Span × Value) :=
  match v, s with
  | .table _ members, .key name => members.lookup name
  | .list _ items, .item i => items[i]?.map fun (span, v) => (span, span, v)
  | _, _ => none

/-- The span of the part that a path leads to, or of its key if `ofKey` is set. A path that leads
nowhere has the span of the last part that is there. -/
def spanAt (ofKey : Bool) : Span → Value → List Datum.Step → Span
  | span, _, [] => span
  | span, v, s :: path =>
    match v.part? s with
    | none => span
    | some (keySpan, span, v) => spanAt ofKey (if ofKey then keySpan else span) v path

/-- The span of the place of a fault. `span` is that of the value as a whole. -/
def spanOf (v : Value) (span : Span) : Datum.Place → Span
  | .value path => spanAt false span v path
  | .key path => spanAt true span v path

end Value

end CodeTidy.Toml
