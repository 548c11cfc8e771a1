import CodeTidy.Detect.Rules
import CodeTidy.Json.Reader
import CodeTidy.Language

/-!
# Detecting the language of a text

Each rule whose pattern is found in the text adds its weight to its language. A language with
evidence is accepted if at least two rules speak for it or the weights reach eight. Among accepted
languages the greatest weight wins, then the greater number of rules, then the one whose matching
rule comes first. A text that is a JSON object or array needs no rules, and only the first 64 KiB
of a text are looked at.
-/

namespace CodeTidy.Detect

/-- The number of bytes that are looked at. -/
def sampleBytes : Nat := 64 * 1024

/-- The weight at which a single rule is enough. -/
def strongEvidence : Nat := 8

/-- The number of rules that are enough whatever their weight. -/
def corroboration : Nat := 2

/-- The longest part at the start of the text that takes at most `budget` bytes. -/
def takeBytes (budget : Nat) (text : List Char) : List Char := go budget [] text
where
  /-- Takes characters from the text while they fit, in front of `done`, which is reversed. -/
  go (budget : Nat) (done : List Char) : List Char → List Char
    | [] => done.reverse
    | c :: rest =>
      if c.utf8Size ≤ budget then go (budget - c.utf8Size) (c :: done) rest else done.reverse

/-- The part of a text that is looked at. -/
def sample (text : List Char) : List Char := takeBytes sampleBytes text

/-- What led to a language. -/
inductive Source where
  | extension
  | container
  | patterns
deriving DecidableEq

/-- The name of a source. -/
def Source.name : Source → String
  | .extension => "extension"
  | .container => "structure"
  | .patterns => "patterns"

/-- A language and the evidence for it: the weights of the rules that matched, and their number. -/
structure Detection where
  language : String
  score : Nat
  patterns : Nat
  source : Source
deriving DecidableEq

/-- The detection as a JSON object. -/
def Detection.toJson (d : Detection) : Json :=
  .obj [("language", .str d.language), ("score", .ofNat d.score),
    ("matchedPatterns", .ofNat d.patterns), ("source", .str d.source.name)]

/-- Is the evidence enough to accept the language? -/
def Detection.isCandidate (d : Detection) : Bool :=
  match d.source with
  | .patterns => corroboration ≤ d.patterns || strongEvidence ≤ d.score
  | _ => true

/-- The evidence gathered for one language, with the index of the first rule that matched. -/
structure Evidence where
  language : String
  score : Nat
  patterns : Nat
  firstRule : Nat
deriving DecidableEq

namespace Evidence

/-- Adds a matching rule to the evidence gathered so far. -/
def add (found : List Evidence) (index : Nat) (language : String) (weight : Nat) : List Evidence :=
  match found with
  | [] => [⟨language, weight, 1, index⟩]
  | e :: es =>
    if e.language == language then
      { e with score := e.score + weight, patterns := e.patterns + 1 } :: es
    else e :: add es index language weight

/-- Does the first evidence rank at least as high as the second? -/
def ranksBefore (a b : Evidence) : Bool :=
  if a.score != b.score then b.score < a.score
  else if a.patterns != b.patterns then b.patterns < a.patterns
  else a.firstRule ≤ b.firstRule

/-- The evidence as a detection by patterns. -/
def detection (e : Evidence) : Detection := ⟨e.language, e.score, e.patterns, .patterns⟩

end Evidence

/-- The evidence of the rules that match, each with its index, best first. -/
def ranking (matching : List (Rule × Nat)) : List Detection :=
  let found := matching.foldl (fun found (r, index) =>
    Evidence.add found index r.language r.weight) []
  (found.mergeSort Evidence.ranksBefore).map Evidence.detection

/-- The rules that match a text, each with its index. -/
def matchingRules (text : List Char) : List (Rule × Nat) :=
  rules.zipIdx.filter fun (r, _) => r.pattern.isFoundIn text

/-- All languages with evidence in the text, accepted or not, best first. -/
def scores (text : List Char) : List Detection := ranking (matchingRules (sample text))

/-- Is the text an object or an array of JSON, up to white space around it? -/
def isJsonContainer (text : List Char) : Bool :=
  let trimmed := Text.trim text
  match trimmed with
  | '\x7b' :: _ => (Json.parse trimmed).isOk
  | '[' :: _ => (Json.parse trimmed).isOk
  | _ => false

/-- The language of a text, if there is enough evidence for one. -/
def detect (text : List Char) : Option Detection :=
  let seen := sample text
  if Text.allBlank seen then none
  else if isJsonContainer seen then some ⟨"json", 0, 0, .container⟩
  else (scores seen).find? Detection.isCandidate

/-- The language of a file: its name tells it, or else its content. -/
def detectFile (name : String) (text : List Char) : Option Detection :=
  match Language.ofPath? name with
  | some language => some ⟨language, 0, 0, .extension⟩
  | none => detect text

end CodeTidy.Detect
