import CodeTidy.Pattern.Basic

/-!
# The written form of patterns

Patterns are written in the usual notation: `|` between alternatives, `*`, `+`, `?` and a count in
braces behind what is repeated, groups in `(?:` and `)`, classes in brackets, and the escapes
`\w`, `\s`, `\d` and `\b`. Letters in front, in `(?` and `)`, set options for the whole pattern: `i`
for letters of either case, `m` for anchors at line ends, and `s` for a dot that matches line feeds
too.
-/

namespace CodeTidy.Pattern

/-- The options of a pattern. -/
structure Options where
  caseless : Bool := false
  multiline : Bool := false
  dotAll : Bool := false

/-- The set of one character. -/
def one (o : Options) (c : Char) : CharSet :=
  if o.caseless then .caseless (.range c c) else .range c c

/-- The set that an escape names, if it names one. -/
def escapedSet? : Char → Option CharSet
  | 'w' => some .word
  | 's' => some .blank
  | 'd' => some .digit
  | 'S' => some (.complement .blank)
  | _ => none

/-- The character that an escape stands for. -/
def escapedChar : Char → Char
  | 'n' => '\n'
  | 't' => '\t'
  | 'r' => '\r'
  | c => c

/-- The items of a class up to its closing bracket. -/
def classItems (o : Options) : Nat → CharSet → List Char → Option (CharSet × List Char)
  | 0, _, _ => none
  | fuel + 1, acc, s =>
    match s with
    | [] => none
    | ']' :: r => some (acc, r)
    | '\\' :: e :: r =>
      classItems o fuel (.union acc ((escapedSet? e).getD (one o (escapedChar e)))) r
    | a :: '-' :: b :: r =>
      if b == ']' then classItems o fuel (.union acc (one o a)) ('-' :: b :: r)
      else
        let set := CharSet.range a b
        classItems o fuel (.union acc (if o.caseless then .caseless set else set)) r
    | a :: r => classItems o fuel (.union acc (one o a)) r

/-- A natural number in decimal, and what follows it. -/
def count (s : List Char) : Nat × List Char :=
  ((s.takeWhile Char.isDigit).foldl (fun n d => n * 10 + (d.toNat - '0'.toNat)) 0,
    s.dropWhile Char.isDigit)

/-- The pattern once, or not at all. -/
def optional (p : Pattern) : Pattern := .alt p .empty

/-- The pattern up to `n` times. -/
def upTo (p : Pattern) : Nat → Pattern
  | 0 => .empty
  | n + 1 => optional (.seq p (upTo p n))

/-- The pattern `n` times, then `rest`. -/
def timesThen (p rest : Pattern) : Nat → Pattern
  | 0 => rest
  | n + 1 => .seq p (timesThen p rest n)

/-- Applies the repetition that is written behind a pattern. -/
def repeated (p : Pattern) (s : List Char) : Pattern × List Char :=
  let lazily (r : List Char) : List Char := match r with
    | '?' :: r => r
    | r => r
  match s with
  | '*' :: r => (.star p, lazily r)
  | '+' :: r => (.seq p (.star p), lazily r)
  | '?' :: r => (optional p, lazily r)
  | '\x7b' :: r =>
    let (m, r) := count r
    match r with
    | ',' :: r =>
      let (n, r) := count r
      (timesThen p (upTo p (n - m)) m, lazily (r.drop 1))
    | r => (timesThen p .empty m, lazily (r.drop 1))
  | r => (p, r)

mutual

/-- Alternatives up to a closing parenthesis or the end. -/
def alternatives (o : Options) : Nat → List Char → Option (Pattern × List Char)
  | 0, _ => none
  | fuel + 1, s =>
    match sequence o fuel s with
    | none => none
    | some (p, '|' :: r) =>
      match alternatives o fuel r with
      | none => none
      | some (q, r) => some (.alt p q, r)
    | some (p, r) => some (p, r)

/-- A sequence of repeated atoms, up to a bar, a closing parenthesis or the end. -/
def sequence (o : Options) : Nat → List Char → Option (Pattern × List Char)
  | 0, _ => none
  | fuel + 1, s =>
    match s with
    | [] => some (.empty, [])
    | '|' :: _ => some (.empty, s)
    | ')' :: _ => some (.empty, s)
    | _ =>
      match atom o fuel s with
      | none => none
      | some (p, r) =>
        let (p, r) := repeated p r
        match sequence o fuel r with
        | none => none
        | some (.empty, r) => some (p, r)
        | some (q, r) => some (.seq p q, r)

/-- A group, a class, an anchor or a character. -/
def atom (o : Options) : Nat → List Char → Option (Pattern × List Char)
  | 0, _ => none
  | fuel + 1, s =>
    match s with
    | '(' :: '?' :: ':' :: r =>
      match alternatives o fuel r with
      | some (p, ')' :: r) => some (p, r)
      | _ => none
    | '[' :: '^' :: r =>
      (classItems o fuel .none r).map fun (set, r) => (.char (.complement set), r)
    | '[' :: r => (classItems o fuel .none r).map fun (set, r) => (.char set, r)
    | '.' :: r =>
      some (.char (.complement (if o.dotAll then .none else .range '\n' '\n')), r)
    | '^' :: r => some (.anchor (if o.multiline then .lineStart else .textStart), r)
    | '$' :: r => some (.anchor (if o.multiline then .lineEnd else .textEnd), r)
    | '\\' :: 'b' :: r => some (.anchor .wordBoundary, r)
    | '\\' :: e :: r => some (.char ((escapedSet? e).getD (one o (escapedChar e))), r)
    | c :: r => some (.char (one o c), r)
    | [] => none

end

/-- The options in front of a pattern, and the rest. -/
def options (s : List Char) : Options × List Char :=
  match s with
  | '(' :: '?' :: r =>
    let flags := r.takeWhile (· != ')')
    if flags.all Char.isAlpha then
      (⟨flags.contains 'i', flags.contains 'm', flags.contains 's'⟩,
        (r.dropWhile (· != ')')).drop 1)
    else ({}, s)
  | _ => ({}, s)

/-- The pattern that a text writes, if it writes one. -/
def ofString? (s : String) : Option Pattern :=
  let (o, rest) := options s.toList
  match alternatives o (4 * rest.length + 4) rest with
  | some (p, []) => some p
  | _ => none

end CodeTidy.Pattern
