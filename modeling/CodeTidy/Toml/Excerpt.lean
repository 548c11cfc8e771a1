import CodeTidy.Text.Blank
import CodeTidy.Toml.Tree

/-!
# Excerpts of a document

A message on a document shows the line that it is about, with the place of the fault marked below.
The column counts characters, and the marks, one for each byte of the span, end with the line.
-/

namespace CodeTidy.Toml

/-- The place of a byte: the number of line feeds in front of it, and the characters between the
last of them and the byte. A place behind the text counts from the last character. -/
def placeOf (line column : Nat) : Nat → List Char → Nat × Nat
  | 0, _ => (line, column)
  | n, [] => (line, column + n)
  | n, [c] => if n < c.utf8Size then (line, column) else (line, column + (n - (c.utf8Size - 1)))
  | n, c :: s =>
    if n < c.utf8Size then (line, column)
    else if c == '\n' then placeOf (line + 1) 0 (n - c.utf8Size) s
    else placeOf line (column + 1) (n - c.utf8Size) s

/-- The lines that show the span of a text. -/
def excerpt (s : List Char) (span : Span) : List Char :=
  let (line, column) := placeOf 0 0 span.start s
  let number := (toString (line + 1)).toList
  let content := (Text.splitOn (· == '\n') s).getD line []
  let marks := max 1 (min (span.stop - span.start) (Text.byteLength content - column))
  let gutter := List.replicate (number.length + 1) ' ' ++ ['|']
  "TOML parse error at line ".toList ++ number ++ ", column ".toList
    ++ (toString (column + 1)).toList ++ ['\n']
    ++ gutter ++ ['\n']
    ++ number ++ " | ".toList ++ content ++ ['\n']
    ++ gutter ++ List.replicate (column + 1) ' ' ++ List.replicate marks '^' ++ ['\n']

end CodeTidy.Toml
