import CodeTidy.Yaml.Token

/-!
# Nodes of YAML

A document is a tree of scalars, lists and maps, in which an alias stands for a node that has an
anchor. The tree is read from tokens. Nodes lie at most `maxDepth` lists and maps deep, which the
functions here use to end: each node is read with a reader for the nodes one level deeper. The loops
over the parts of a node take fuel, for which one more than the number of tokens is enough.
-/

namespace CodeTidy.Yaml

/-- A node of a document. An alias gives the number of an anchor. -/
inductive Node where
  | alias (anchor : Nat)
  | scalar (tag : Option (List Char)) (plain : Bool) (text : List Char)
  | list (tag : Option (List Char)) (items : List Node)
  | map (tag : Option (List Char)) (entries : List (Node × Node))

/-- How many lists and maps may lie within each other. -/
def maxDepth : Nat := 128

/-- The node that stands where there is nothing. -/
def Node.absent : Node := .scalar none true []

/-- What is left of a document and what has been found in it.

An anchor has a number, and its nodes are told apart by their order. A name that is used again gets
a number again: the count of names that have been used, which may be the number of another name by
then. An alias stands for the last node that has the number. -/
structure Draft where
  tokens : List Token
  /-- What handles stand for. -/
  handles : List (List Char × List Char) := []
  /-- The numbers of the names of anchors. -/
  names : List (List Char × Nat) := []
  /-- The nodes with a number, the last one first, each with its place in their order. -/
  numbered : List (Nat × Nat) := []
  /-- The nodes that have been read by their place. -/
  nodes : List (Nat × Node) := []

/-- A reader of a part of a document. -/
abbrev Reader (α : Type) := Draft → Option (α × Draft)

/-- Where a node is, which decides on the forms that it may have. -/
inductive Position where
  /-- Between brackets. -/
  | flow
  /-- In a block. -/
  | block
  /-- In a block, as a key or a value. The items of a list need not be indented there. -/
  | entry
deriving DecidableEq

namespace Draft

/-- The document with other tokens left. -/
def leave (d : Draft) (tokens : List Token) : Draft := { d with tokens }

/-- Gives a name to the node that starts here, and tells its place. -/
def nameNode (d : Draft) (name : List Char) : Nat × Draft :=
  let number := d.names.length
  let place := d.numbered.length
  let names := (name, number) :: d.names.filter (·.1 != name)
  (place, { d with names, numbered := (number, place) :: d.numbered })

/-- Notes a node that has been read, if it has a place. -/
def note (d : Draft) (place : Option Nat) (n : Node) : Draft :=
  match place with
  | some p => { d with nodes := (p, n) :: d.nodes }
  | none => d

/-- The node that an alias stands for. -/
def target (d : Draft) (anchor : Nat) : Option Node := do
  d.nodes.lookup (← d.numbered.lookup anchor)

/-- The tag in full. Fails if nothing is known about its handle. -/
def resolve (d : Draft) (t : Tag) : Option (List Char) :=
  if t.handle.isEmpty then some t.suffix
  else (d.handles.lookup t.handle).map (· ++ t.suffix)

end Draft

/-- Reads an anchor, if there is one. -/
def anchor? : Reader (Option (List Char)) := fun d =>
  match d.tokens with
  | .anchor name :: rest => some (some name, d.leave rest)
  | _ => some (none, d)

/-- Reads a tag, if there is one. -/
def tag? : Reader (Option (List Char)) := fun d =>
  match d.tokens with
  | .tag t :: rest => do
    let tag ← d.resolve t
    return (some tag, d.leave rest)
  | _ => some (none, d)

/-- Reads an anchor and a tag, each of which may be missing, in either order. -/
def properties : Reader (Option (List Char) × Option (List Char)) := fun d => do
  let (anchor, d) ← anchor? d
  let (tag, d) ← tag? d
  match anchor with
  | some _ => return ((anchor, tag), d)
  | none =>
    let (anchor, d) ← anchor? d
    return ((anchor, tag), d)

/-- Reads a node with `read`, unless the next token shows that there is none. -/
def orAbsent (read : Reader Node) (ends : Token → Bool) : Reader Node := fun d =>
  match d.tokens with
  | t :: _ => if ends t then some (.absent, d) else read d
  | [] => read d

/-- Reads the items of a list in a block, up to its end. -/
def blockItems (read : Reader Node) : Nat → List Node → Reader (List Node)
  | 0, _, _ => none
  | fuel + 1, acc, d =>
    match d.tokens with
    | .item :: rest =>
      match orAbsent read (fun t => t == .item || t == .blockEnd) (d.leave rest) with
      | some (n, d) => blockItems read fuel (n :: acc) d
      | none => none
    | .blockEnd :: rest => some (acc.reverse, d.leave rest)
    | _ => none

/-- Reads the items of a list that is not indented. -/
def levelItems (read : Reader Node) : Nat → List Node → Reader (List Node)
  | 0, _, _ => none
  | fuel + 1, acc, d =>
    match d.tokens with
    | .item :: rest =>
      let ends (t : Token) : Bool := t == .item || t == .key || t == .value || t == .blockEnd
      match orAbsent read ends (d.leave rest) with
      | some (n, d) => levelItems read fuel (n :: acc) d
      | none => none
    | _ => some (acc.reverse, d)

/-- Does the token end a key or a value in a block? -/
def endsEntry (t : Token) : Bool := t == .key || t == .value || t == .blockEnd

/-- Reads the value in a block, which may be missing. -/
def blockValue (read : Reader Node) : Reader Node := fun d =>
  match d.tokens with
  | .value :: rest => orAbsent read endsEntry (d.leave rest)
  | _ => some (.absent, d)

/-- Reads a key and its value in a block. -/
def blockEntry (read : Reader Node) : Reader (Node × Node) := fun d =>
  match d.tokens with
  | .key :: rest => do
    let (k, d) ← orAbsent read endsEntry (d.leave rest)
    let (v, d) ← blockValue read d
    return ((k, v), d)
  | _ => none

/-- Reads the entries of a map in a block, up to its end. -/
def blockEntries (read : Reader Node) : Nat → List (Node × Node) → Reader (List (Node × Node))
  | 0, _, _ => none
  | fuel + 1, acc, d =>
    match d.tokens with
    | .blockEnd :: rest => some (acc.reverse, d.leave rest)
    | _ =>
      match blockEntry read d with
      | some (e, d) => blockEntries read fuel (e :: acc) d
      | none => none

/-- Passes the comma between two parts, of which there is none in front of the first. -/
def separator (first : Bool) : Reader Unit := fun d =>
  match first, d.tokens with
  | true, _ => some ((), d)
  | false, .comma :: rest => some ((), d.leave rest)
  | false, _ => none

/-- Reads a single key and its value as an item of a list in brackets. The token that shows that
the key is missing is passed even if it is the mark of the value. -/
def pair (read : Reader Node) : Reader Node := fun d => do
  let ends (t : Token) : Bool := t == .comma || t == .closeList
  let (k, d) ← match d.tokens with
    | .value :: rest => some (.absent, d.leave rest)
    | .comma :: rest => some (.absent, d.leave rest)
    | .closeList :: rest => some (.absent, d.leave rest)
    | _ => read d
  let (v, d) ← match d.tokens with
    | .value :: rest => orAbsent read ends (d.leave rest)
    | _ => some (.absent, d)
  return (.map none [(k, v)], d)

/-- Reads an item of a list in brackets. -/
def flowItem (read : Reader Node) : Reader Node := fun d =>
  match d.tokens with
  | .key :: rest => pair read (d.leave rest)
  | _ => read d

/-- Reads the items of a list in brackets, up to the closing one. -/
def flowItems (read : Reader Node) : Nat → List Node → Reader (List Node)
  | 0, _, _ => none
  | fuel + 1, acc, d =>
    match d.tokens with
    | .closeList :: rest => some (acc.reverse, d.leave rest)
    | _ =>
      match separator acc.isEmpty d with
      | none => none
      | some (_, d) =>
        match d.tokens with
        | .closeList :: rest => some (acc.reverse, d.leave rest)
        | _ =>
          match flowItem read d with
          | some (n, d) => flowItems read fuel (n :: acc) d
          | none => none

/-- Reads a key and its value between brackets. -/
def flowEntry (read : Reader Node) : Reader (Node × Node) := fun d =>
  let ends (t : Token) : Bool := t == .comma || t == .closeMap
  match d.tokens with
  | .key :: rest => do
    let (k, d) ← orAbsent read (fun t => t == .value || ends t) (d.leave rest)
    let (v, d) ← match d.tokens with
      | .value :: rest => orAbsent read ends (d.leave rest)
      | _ => some (.absent, d)
    return ((k, v), d)
  | _ => do
    let (k, d) ← read d
    return ((k, .absent), d)

/-- Reads the entries of a map in brackets, up to the closing one. -/
def flowEntries (read : Reader Node) : Nat → List (Node × Node) → Reader (List (Node × Node))
  | 0, _, _ => none
  | fuel + 1, acc, d =>
    match d.tokens with
    | .closeMap :: rest => some (acc.reverse, d.leave rest)
    | _ =>
      match separator acc.isEmpty d with
      | none => none
      | some (_, d) =>
        match d.tokens with
        | .closeMap :: rest => some (acc.reverse, d.leave rest)
        | _ =>
          match flowEntry read d with
          | some (e, d) => flowEntries read fuel (e :: acc) d
          | none => none

/-- Reads a list or a map whose first token has been passed. -/
def collection (read : Position → Reader Node) (fuel : Nat) (tag : Option (List Char))
    (opening : Token) : Reader Node := fun d =>
  let list (r : Option (List Node × Draft)) : Option (Node × Draft) :=
    r.map fun (ns, d) => (.list tag ns, d)
  let map (r : Option (List (Node × Node) × Draft)) : Option (Node × Draft) :=
    r.map fun (es, d) => (.map tag es, d)
  match opening with
  | .listStart => list (blockItems (read .block) fuel [] d)
  | .mapStart => map (blockEntries (read .entry) fuel [] d)
  | .openList => list (flowItems (read .flow) fuel [] d)
  | .openMap => map (flowEntries (read .flow) fuel [] d)
  | _ => none

/-- Reads what follows the properties of a node. `deeper` reads the nodes one level deeper, if they
may lie that deep. -/
def content (deeper : Option (Position → Reader Node)) (fuel : Nat) (p : Position)
    (tag : Option (List Char)) (named : Bool) : Reader Node := fun d =>
  let absent : Option (Node × Draft) :=
    if named || tag.isSome then some (.scalar tag true [], d) else none
  match d.tokens with
  | .scalar plain text :: rest =>
    let tag := if tag == some ['!'] then none else tag
    some (.scalar tag plain text, d.leave rest)
  | .item :: _ =>
    if p == .entry then do
      let read ← deeper
      let (items, d) ← levelItems (read .block) fuel [] d
      return (.list tag items, d)
    else absent
  | t :: rest =>
    if t == .openList || t == .openMap || (p != .flow && (t == .listStart || t == .mapStart)) then do
      collection (← deeper) fuel tag t (d.leave rest)
    else absent
  | [] => absent

/-- Reads a node. -/
def nodeWith (deeper : Option (Position → Reader Node)) (fuel : Nat) (p : Position) :
    Reader Node := fun d =>
  match d.tokens with
  | .alias name :: rest => do
    let number ← d.names.lookup name
    return (.alias number, d.leave rest)
  | _ => do
    let ((anchor, tag), d) ← properties d
    let (place, d) := match anchor with
      | some name =>
        let (place, d) := d.nameNode name
        (some place, d)
      | none => (none, d)
    let (n, d) ← content deeper fuel p tag anchor.isSome d
    return (n, d.note place n)

/-- Reads a node that holds lists and maps at most `depth` deep. -/
def node (fuel : Nat) : Nat → Position → Reader Node
  | 0 => nodeWith none fuel
  | depth + 1 => nodeWith (some (node fuel depth)) fuel

/-- A document: its outermost node, and the nodes that its aliases stand for. -/
structure Document where
  root : Node
  target : Nat → Option Node

/-- The handles whose meaning is known without a directive. -/
def knownHandles : List (List Char × List Char) :=
  [(['!'], ['!']), (['!', '!'], "tag:yaml.org,2002:".toList)]

/-- Reads the directives in front of a document. There is at most one version, which is 1.1 or 1.2,
and each handle has one meaning. -/
def directives (versioned : Bool) (handles : List (List Char × List Char)) :
    List Token → Option (List (List Char × List Char) × List Token)
  | .directive (.version major minor) :: rest =>
    if versioned || major != 1 || (minor != 1 && minor != 2) then none
    else directives true handles rest
  | .directive (.handle name stem) :: rest =>
    if (handles.lookup name).isSome then none
    else directives versioned ((name, stem) :: handles) rest
  | rest => some (handles, rest)

/-- The only document of a text, from its tokens. Without tokens it is nothing but an absent
node. -/
def Document.ofTokens? (tokens : List Token) : Option Document := do
  let (handles, rest) ← directives false [] tokens
  let read : Reader Node := node (tokens.length + 1) maxDepth .block
  let draft : Draft := { tokens := rest, handles := handles ++ knownHandles }
  let (root, d) ← match rest with
    | [] => if tokens.isEmpty then some (.absent, draft) else none
    | .documentStart :: rest =>
      let ends (t : Token) : Bool := t == .documentStart || t == .documentEnd
      match rest with
      | [] => some (.absent, draft.leave [])
      | _ => orAbsent read ends (draft.leave rest)
    | _ => if rest.length < tokens.length then none else read draft
  if d.tokens.all (· == .documentEnd) then return ⟨root, d.target⟩ else none

end CodeTidy.Yaml
