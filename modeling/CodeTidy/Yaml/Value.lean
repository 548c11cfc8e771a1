import CodeTidy.Yaml.Node

/-!
# Values of YAML

A node stands for a value. A plain scalar is nothing, a truth value, a number or a text, as it
looks; one in quotes is a text. A tag of the core schema asks for one of these types, and a local
tag, which starts with an exclamation mark, stays with the value. Aliases are followed, as often as
`jumps` allows, and the keys of a map are distinct.
-/

namespace CodeTidy.Yaml

/-- A value of a YAML document. A tag is given by what is behind its exclamation mark, or behind a
second one. -/
inductive Value where
  | null
  | bool (value : Bool)
  | int (value : Int)
  | real (value : Float)
  | str (text : List Char)
  | list (items : List Value)
  | map (entries : List (Value × Value))
  | tagged (tag : List Char) (value : Value)

/-- The words for nothing. -/
def nulls : List (List Char) := ["null", "Null", "NULL", "~"].map String.toList

/-- The words for truth values. -/
def truths : List (List Char × Bool) :=
  [("true", true), ("True", true), ("TRUE", true), ("false", false), ("False", false),
    ("FALSE", false)].map fun (word, b) => (word.toList, b)

/-- The number that a text of digits denotes. There is at least one digit. -/
def natural? (base : Nat) (s : List Char) : Option Nat :=
  if s.isEmpty then none else (s.mapM (Decimal.digit? base)).map (Decimal.ofDigits base)

/-- Does the text start with a zero that further digits follow? Such a text is no number. -/
def isZeroFilled (s : List Char) : Bool :=
  let digits := match s with
    | '+' :: rest => rest
    | '-' :: rest => rest
    | _ => s
  match digits with
  | '0' :: c :: rest => (c :: rest).all Text.isAsciiDigit
  | _ => false

/-- The magnitude of an integer in any of its notations. -/
def magnitude? (s : List Char) : Option Nat :=
  match s with
  | '0' :: 'x' :: ds => natural? 16 ds
  | '0' :: 'o' :: ds => natural? 8 ds
  | '0' :: 'b' :: ds => natural? 2 ds
  | _ => if isZeroFilled s then none else natural? 10 s

/-- The integer that a text denotes, unless it has more than 128 bits. -/
def integer? (s : List Char) : Option Int := do
  match s with
  | '-' :: rest =>
    let n ← magnitude? rest
    if n ≤ 0x80000000000000000000000000000000 then return -n else none
  | '+' :: rest =>
    let n ← magnitude? rest
    if n < 0x100000000000000000000000000000000 then return n else none
  | _ =>
    let n ← magnitude? s
    if n < 0x100000000000000000000000000000000 then return n else none

/-- The power of ten behind the `e` of a number. -/
def power? (s : List Char) : Option Int :=
  match s with
  | '-' :: ds => (natural? 10 ds).map fun n => -(n : Int)
  | '+' :: ds => (natural? 10 ds).map (↑·)
  | ds => (natural? 10 ds).map (↑·)

/-- The number that a decimal without a sign denotes. It has a digit in front of its point or
behind it. -/
def decimal? (s : List Char) : Option Float := do
  let isMark (c : Char) : Bool := c == 'e' || c == 'E'
  let mantissa := s.takeWhile (!isMark ·)
  let whole := mantissa.takeWhile (· != '.')
  let fraction := (mantissa.drop whole.length).drop 1
  let power ← match s.drop mantissa.length with
    | [] => some 0
    | _ :: es => power? es
  return Decimal.nearest (← natural? 10 (whole ++ fraction)) (power - fraction.length)

/-- The floating-point number that a text denotes. Decimals are finite. -/
def real? (s : List Char) : Option Float :=
  let infinities := [".inf", ".Inf", ".INF"].map String.toList
  let finite (s : List Char) : Option Float := (decimal? s).filter fun x => x.isFinite
  if [".nan", ".NaN", ".NAN"].contains (String.ofList s) then some (0 / 0)
  else
    match s with
    | '-' :: rest => if infinities.contains rest then some (-1 / 0) else (finite rest).map (-·)
    | '+' :: rest => if infinities.contains rest then some (1 / 0) else finite rest
    | _ => if infinities.contains s then some (1 / 0) else finite s

/-- The value of an integer. Fails beyond 64 bits. -/
def Value.ofInteger (n : Int) : Option Value :=
  if -0x8000000000000000 ≤ n && n < 0x10000000000000000 then some (.int n) else none

/-- The value of a plain scalar. -/
def Value.ofPlain (s : List Char) : Option Value :=
  if s.isEmpty || nulls.contains s then some .null
  else
    match truths.lookup s, integer? s with
    | some b, _ => some (.bool b)
    | none, some n => Value.ofInteger n
    | none, none =>
      match if isZeroFilled s then none else real? s with
      | some x => some (.real x)
      | none => some (.str s)

/-- The tag of a type of the core schema. -/
def coreTag (name : String) : List Char := ("tag:yaml.org,2002:" ++ name).toList

/-- The value of a scalar whose tag, if it has one, is not local. -/
def Value.ofScalar (tag : Option (List Char)) (plain : Bool) (s : List Char) : Option Value :=
  match tag with
  | none => if plain then Value.ofPlain s else some (.str s)
  | some t =>
    if t == coreTag "bool" then (truths.lookup s).map .bool
    else if t == coreTag "int" then (integer? s).bind Value.ofInteger
    else if t == coreTag "float" then (real? s).map .real
    else if t == coreTag "null" then if nulls.contains s then some .null else none
    else some (.str s)

/-- A local tag: what is behind its exclamation mark, or behind a second one. -/
def localTag? : Option (List Char) → Option (List Char)
  | some ('!' :: '!' :: c :: rest) => some (c :: rest)
  | some ('!' :: rest) => some rest
  | _ => none

mutual

/-- Are the values the same? The order of the entries of a map does not matter, and what is no
number is the same as itself. -/
def Value.same : Value → Value → Bool
  | .null, .null => true
  | .bool a, .bool b => a == b
  | .int m, .int n => m == n
  | .real x, .real y => x == y || (x.isNaN && y.isNaN)
  | .str s, .str t => s == t
  | .list us, .list vs => sameItems us vs
  | .map es, .map fs => es.length == fs.length && sameEntries es fs
  | .tagged s u, .tagged t v => s == t && u.same v
  | _, _ => false

/-- Are the items the same, one by one? -/
def sameItems : List Value → List Value → Bool
  | [], [] => true
  | u :: us, v :: vs => u.same v && sameItems us vs
  | _, _ => false

/-- Is each of the entries also among the others? -/
def sameEntries : List (Value × Value) → List (Value × Value) → Bool
  | [], _ => true
  | (k, v) :: es, fs => fs.any (fun (l, w) => k.same l && v.same w) && sameEntries es fs

end

/-- A reader of values from nodes, which counts how many aliases may still be followed. -/
abbrev Resolver (α β : Type) := α → Nat → Option (β × Nat)

/-- The values of the items of a list, put, reversed, in front of `acc`. -/
def itemValues (read : Resolver Node Value) (acc : List Value) :
    Resolver (List Node) (List Value)
  | [], jumps => some (acc.reverse, jumps)
  | n :: ns, jumps =>
    match read n jumps with
    | some (v, jumps) => itemValues read (v :: acc) ns jumps
    | none => none

/-- The values of the entries of a map, put, reversed, in front of `acc`. Fails at a key that has
been there before. -/
def entryValues (read : Resolver Node Value) (acc : List (Value × Value)) :
    Resolver (List (Node × Node)) (List (Value × Value))
  | [], jumps => some (acc.reverse, jumps)
  | (k, v) :: es, jumps =>
    match read k jumps with
    | none => none
    | some (k, jumps) =>
      if acc.any (·.1.same k) then none
      else
        match read v jumps with
        | some (v, jumps) => entryValues read ((k, v) :: acc) es jumps
        | none => none

/-- The node that an alias stands for, or the node itself. -/
def follow (target : Nat → Option Node) : Resolver Node Node
  | .alias a, jumps + 1 => (target a).map (·, jumps)
  | .alias _, 0 => none
  | n, jumps => some (n, jumps)

/-- The value with a local tag, which must not be empty. -/
def withTag (tag : Option (List Char)) (v : Value) : Option Value :=
  match localTag? tag with
  | some [] => none
  | some t => some (.tagged t v)
  | none => some v

/-- The value of a node. `deeper` gives those of the nodes in a list or a map, if they may lie that
deep. -/
def valueWith (target : Nat → Option Node) (deeper : Option (Resolver Node Value)) :
    Resolver Node Value := fun n jumps => do
  let (n, jumps) ← follow target n jumps
  match n with
  | .alias _ => none
  | .scalar tag plain text =>
    let core := if (localTag? tag).isSome then none else tag
    return (← withTag tag (← Value.ofScalar core plain text), jumps)
  | .list tag items =>
    let (vs, jumps) ← itemValues (← deeper) [] items jumps
    return (← withTag tag (.list vs), jumps)
  | .map tag entries =>
    let (es, jumps) ← entryValues (← deeper) [] entries jumps
    return (← withTag tag (.map es), jumps)

/-- The value of a node that holds lists and maps at most `depth` deep, aliases followed. -/
def value (target : Nat → Option Node) : Nat → Resolver Node Value
  | 0 => valueWith target none
  | depth + 1 => valueWith target (some (value target depth))

mutual

/-- The size of a node: one for a scalar or an alias, and two for a list or a map besides the
sizes of its parts. -/
def Node.size : Node → Nat
  | .alias _ => 1
  | .scalar .. => 1
  | .list _ ns => 2 + itemsSize ns
  | .map _ es => 2 + entriesSize es

/-- The size of items. -/
def itemsSize : List Node → Nat
  | [] => 0
  | n :: ns => n.size + itemsSize ns

/-- The size of entries. -/
def entriesSize : List (Node × Node) → Nat
  | [] => 0
  | (k, v) :: es => k.size + v.size + entriesSize es

end

/-- The value of a document. A hundred aliases may be followed for each unit of its size. -/
def Document.value? (d : Document) : Option Value :=
  (value d.target maxDepth d.root (100 * d.root.size)).map (·.1)

/-- The value that a text stands for. -/
def Value.parse? (s : List Char) : Option Value := do
  (← Document.ofTokens? (← tokens? s)).value?

end CodeTidy.Yaml
