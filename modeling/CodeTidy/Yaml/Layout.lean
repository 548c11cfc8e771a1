import CodeTidy.Yaml.Printer

/-!
# Layout of YAML

A text is laid out anew by writing the value that it stands for. Comments would be lost, so a text
with a comment is left alone.
-/

namespace CodeTidy.Yaml

/-- Why a text has no layout. -/
inductive Fault where
  | commented
  | invalid
  | unwritable
deriving DecidableEq

/-- Is there a comment on the line? A number sign opens one behind white space or at the start,
outside of quotes. -/
def hasComment (quote : Option Char) (afterBlank : Bool) : List Char → Bool
  | [] => false
  | c :: rest =>
    match quote with
    | some q => hasComment (if c == q then none else quote) (Text.isBlank c) rest
    | none =>
      if c == '"' || c == '\'' then hasComment (some c) false rest
      else if c == '#' && afterBlank then true
      else hasComment none (Text.isBlank c) rest

/-- A YAML text in its usual form. A blank text is left out. -/
def tidy (s : List Char) : Except Fault (List Char) :=
  if Text.allBlank s then .ok []
  else if (Text.lines s).any (hasComment none true) then .error .commented
  else
    match Value.parse? s with
    | none => .error .invalid
    | some v =>
      match v.print? with
      | none => .error .unwritable
      | some text => .ok text

end CodeTidy.Yaml
