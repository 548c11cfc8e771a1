import CodeTidy.Markup.Token
import CodeTidy.Settings.Basic

/-!
# Layout of markup

Each tag and each text goes on a line of its own, indented by the elements around it. An element
with nothing but a short text stays on one line. Runs of white space in a text become one blank,
and the content of `pre` and `textarea` is kept as it is.
-/

namespace CodeTidy.Markup

/-- The state of the layout. Lines are held with the last first. -/
structure State where
  lines : List (List Char) := []
  depth : Nat := 0
  /-- The element whose content has just been kept as it is, until its end tag comes. -/
  verbatim : Option (List Char) := none

namespace State

/-- Writes a line at the current depth. -/
def emit (unit : List Char) (st : State) (text : List Char) : State :=
  { st with lines := ((List.replicate st.depth unit).flatten ++ text) :: st.lines }

/-- Writes at the end of the last line. -/
def append (st : State) (text : List Char) : State :=
  match st.lines with
  | [] => st
  | line :: lines => { st with lines := (line ++ text) :: lines }

end State

/-- The words of a text with one blank between each two. -/
def collapse (text : List Char) : List Char := Text.joinWith [' '] (Text.words text)

/-- Is the element one whose content is kept as it is? -/
def isVerbatim (name : List Char) : Bool :=
  name == "pre".toList || name == "textarea".toList

/-- The line and the tokens behind it, if the element that a start tag opens fits on one line. -/
def inline? (settings : Settings) (depth : Nat) (name raw : List Char) :
    List Token → Option (List Char × List Token)
  | .closeTag name' raw' :: rest => if name' == name then some (raw ++ raw', rest) else none
  | .text text :: .closeTag name' raw' :: rest =>
    if name' == name && !isRawElement name then
      let line := raw ++ collapse text ++ raw'
      if Text.byteLength line + depth * settings.indentColumns ≤ settings.lineWrap.limit then
        some (line, rest)
      else none
    else none
  | _ => none

/-- Lays out a start tag that does not fit on one line with its element, together with the content
of a raw element. Gives back the tokens behind it. -/
def openElement (unit : List Char) (st : State) (name raw : List Char) (selfClosing : Bool)
    (rest : List Token) : State × List Token :=
  let st := st.emit unit (Text.trim raw)
  if selfClosing then (st, rest)
  else
    let st := { st with depth := st.depth + 1 }
    match rest with
    | .other content :: rest' =>
      if isRawElement name then
        if isVerbatim name then ({ st.append content with verbatim := some name }, rest')
        else
          let inner := ((Text.lines content).map Text.trim).filter (!·.isEmpty)
          (inner.foldl (State.emit unit) st, rest')
      else (st, rest)
    | _ => (st, rest)

/-- Lays out an end tag. It stays directly behind content that was kept as it is. -/
def closeElement (unit : List Char) (st : State) (name raw : List Char) : State :=
  let st := { st with depth := st.depth - 1 }
  if st.verbatim == some name && !st.lines.isEmpty then { st.append raw with verbatim := none }
  else st.emit unit (Text.trim raw)

/-- Writes a line unless it is empty. -/
def emitNonempty (unit : List Char) (st : State) (text : List Char) : State :=
  if text.isEmpty then st else st.emit unit text

/-- Lays out the first tokens and gives back the others. -/
def step (settings : Settings) (st : State) (token : Token) (rest : List Token) :
    State × List Token :=
  let unit := settings.indentUnit
  match token with
  | .openTag name raw selfClosing =>
    match if selfClosing then none else inline? settings st.depth name raw rest with
    | some (line, rest) => (st.emit unit line, rest)
    | none => openElement unit st name raw selfClosing rest
  | .closeTag name raw => (closeElement unit st name raw, rest)
  | .text text => (emitNonempty unit st (collapse text), rest)
  | .other raw => (emitNonempty unit st (Text.trim raw), rest)

/-- Lays out tokens. Each step takes at least one of them, so their number is enough fuel. -/
def run (settings : Settings) : Nat → State → List Token → State
  | 0, st, _ => st
  | _ + 1, st, [] => st
  | fuel + 1, st, token :: rest =>
    let (st, rest) := step settings st token rest
    run settings fuel st rest

/-- The lines written, from the first to the last, each with a line feed. -/
def State.text (st : State) : List Char := (st.lines.reverse.map (· ++ ['\n'])).flatten

/-- Markup laid out by settings. -/
def beautify (settings : Settings) (html : Bool) (text : List Char) : List Char :=
  let tokens := tokenize html text
  (run settings tokens.length {} tokens).text

end CodeTidy.Markup
