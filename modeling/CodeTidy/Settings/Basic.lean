import CodeTidy.Settings.Widths

/-!
# Settings

`Overrides` is what a user or a default table sets, where every field may be left open, and
`Settings` is what a formatter works by, where every field is decided.
-/

namespace CodeTidy

/-- The quotes preferred for string literals. -/
inductive QuoteStyle where
  | double
  | single
deriving DecidableEq

/-- Where a comma behind the last element of a list is wanted. -/
inductive TrailingComma where
  | none
  | es5
  | all
deriving DecidableEq

/-- The case of keywords in query languages. -/
inductive KeywordCase where
  | preserve
  | upper
  | lower
deriving DecidableEq

/-- The side of a line break on which a separating comma goes. -/
inductive CommaPosition where
  | before
  | after
deriving DecidableEq

/-- Settings in which every field may be left open. -/
structure Overrides where
  indentSize : Option IndentToken := none
  useTabs : Option Bool := none
  singleQuote : Option Bool := none
  semi : Option Bool := none
  trailingComma : Option TrailingComma := none
  lineWrap : Option LineWidth := none
  keywordCase : Option KeywordCase := none
  commaPosition : Option CommaPosition := none
  alignEntries : Option Bool := none
  alignComments : Option Bool := none
  indentTables : Option Bool := none
deriving DecidableEq

/-- Settings in which every field is decided. -/
structure Settings where
  indentWidth : IndentSize
  useTabs : Bool
  quoteStyle : QuoteStyle
  semi : Bool
  trailingComma : TrailingComma
  lineWrap : LineWidth
  keywordCase : KeywordCase
  commaPosition : CommaPosition
  alignEntries : Bool
  alignComments : Bool
  indentTables : Bool
deriving DecidableEq

/-- The names of the quote styles. -/
def QuoteStyle.name : QuoteStyle → String
  | .double => "double"
  | .single => "single"

/-- The names of the policies for trailing commas. -/
def TrailingComma.named : List (String × TrailingComma) :=
  [("none", .none), ("es5", .es5), ("all", .all)]

/-- The name of a policy for trailing commas. -/
def TrailingComma.name : TrailingComma → String
  | .none => "none"
  | .es5 => "es5"
  | .all => "all"

/-- The names of the keyword cases. -/
def KeywordCase.named : List (String × KeywordCase) :=
  [("preserve", .preserve), ("upper", .upper), ("lower", .lower)]

/-- The name of a keyword case. -/
def KeywordCase.name : KeywordCase → String
  | .preserve => "preserve"
  | .upper => "upper"
  | .lower => "lower"

/-- The names of the comma positions. -/
def CommaPosition.named : List (String × CommaPosition) := [("before", .before), ("after", .after)]

/-- The name of a comma position. -/
def CommaPosition.name : CommaPosition → String
  | .before => "before"
  | .after => "after"

namespace Overrides

/-- The overrides with those of `layer` on top: a field that `layer` sets wins. -/
def mergedWith (base layer : Overrides) : Overrides where
  indentSize := layer.indentSize <|> base.indentSize
  useTabs := layer.useTabs <|> base.useTabs
  singleQuote := layer.singleQuote <|> base.singleQuote
  semi := layer.semi <|> base.semi
  trailingComma := layer.trailingComma <|> base.trailingComma
  lineWrap := layer.lineWrap <|> base.lineWrap
  keywordCase := layer.keywordCase <|> base.keywordCase
  commaPosition := layer.commaPosition <|> base.commaPosition
  alignEntries := layer.alignEntries <|> base.alignEntries
  alignComments := layer.alignComments <|> base.alignComments
  indentTables := layer.indentTables <|> base.indentTables

/-- The member for a field, or nothing if it is left open. -/
def member {α : Type} (key : String) (write : α → Json) : Option α → List (String × Json)
  | some a => [(key, write a)]
  | none => []

/-- The overrides as a JSON object that holds the fields set. -/
def toJson (o : Overrides) : Json :=
  .obj <| member "indentSize" IndentToken.toJson o.indentSize
    ++ member "useTabs" .bool o.useTabs
    ++ member "singleQuote" .bool o.singleQuote
    ++ member "semi" .bool o.semi
    ++ member "trailingComma" (fun t => .str t.name) o.trailingComma
    ++ member "lineWrap" (fun w => .ofNat w.columns) o.lineWrap
    ++ member "keywordCase" (fun k => .str k.name) o.keywordCase
    ++ member "commaPosition" (fun p => .str p.name) o.commaPosition
    ++ member "alignEntries" .bool o.alignEntries
    ++ member "alignComments" .bool o.alignComments
    ++ member "indentTables" .bool o.indentTables

end Overrides

namespace Settings

/-- One level of indentation as text. -/
def indentUnit (s : Settings) : List Char :=
  if s.useTabs then ['\t'] else List.replicate s.indentWidth.columns ' '

/-- The columns of one level of indentation, also where tabs are used. -/
def indentColumns (s : Settings) : Nat := s.indentWidth.columns

/-- The settings as a JSON object, in a fixed order of fields. -/
def toJson (s : Settings) : Json :=
  .obj [("indentWidth", .ofNat s.indentWidth.columns), ("useTabs", .bool s.useTabs),
    ("quoteStyle", .str s.quoteStyle.name), ("semi", .bool s.semi),
    ("trailingComma", .str s.trailingComma.name), ("lineWrap", .ofNat s.lineWrap.columns),
    ("keywordCase", .str s.keywordCase.name), ("commaPosition", .str s.commaPosition.name),
    ("alignEntries", .bool s.alignEntries), ("alignComments", .bool s.alignComments),
    ("indentTables", .bool s.indentTables)]

end Settings

end CodeTidy
