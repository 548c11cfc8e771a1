import CodeTidy.Language
import CodeTidy.Settings.Basic

/-!
# Resolving settings

The settings for a request come from three layers: what the user sets, the defaults of the
language, and the global defaults. Each field is taken from the first layer that sets it. The
indentation setting carries two things, so it is taken apart: the first layer that sets it decides
whether tabs are forced, and the first layer that gives a width decides the width.
-/

namespace CodeTidy

/-- The layer below all others, in which every field is set. -/
def globalDefaults : Overrides where
  indentSize := some (.width .two)
  useTabs := some false
  singleQuote := some false
  semi := some true
  trailingComma := some .es5
  lineWrap := some ⟨80, by decide⟩
  keywordCase := some .preserve
  commaPosition := some .after
  alignEntries := some false
  alignComments := some true
  indentTables := some false

/-- An indentation of four columns. -/
def fourColumns : Option IndentToken := some (.width ⟨4, by decide, by decide⟩)

/-- The defaults of a language, given by its canonical name. A language without defaults of its
own has an empty layer. -/
def languageDefaults (language : String) : Overrides :=
  if language ∈ ["go", "makefile"] then { indentSize := fourColumns, useTabs := some true }
  else if language = "python" then
    { indentSize := fourColumns, lineWrap := some ⟨88, by decide⟩ }
  else if language = "rust" then
    { indentSize := fourColumns, lineWrap := some ⟨100, by decide⟩, trailingComma := some .all }
  else if language ∈ ["java", "kotlin", "c", "cpp", "csharp", "php", "swift", "scala", "dart",
      "perl"] then
    { indentSize := fourColumns }
  else if language = "sql" then { keywordCase := some .upper }
  else if language = "toml" then { alignEntries := some false, indentTables := some false }
  else if language = "json" then { trailingComma := some .none }
  else {}

namespace Settings

/-- The first value that a layer sets. -/
def firstSet {α : Type} (layers : List Overrides) (field : Overrides → Option α) : Option α :=
  layers.findSome? field

/-- The settings that a stack of layers resolves to, the topmost layer first. A field that no
layer sets has its usual value. -/
def ofLayers (layers : List Overrides) : Settings where
  indentWidth :=
    (firstSet layers fun o => o.indentSize.bind IndentToken.size?).getD .two
  useTabs :=
    match firstSet layers (·.indentSize) with
    | some .tab => true
    | _ => (firstSet layers (·.useTabs)).getD false
  quoteStyle :=
    match firstSet layers (·.singleQuote) with
    | some true => .single
    | _ => .double
  semi := (firstSet layers (·.semi)).getD true
  trailingComma := (firstSet layers (·.trailingComma)).getD .es5
  lineWrap := (firstSet layers (·.lineWrap)).getD ⟨80, by decide⟩
  keywordCase := (firstSet layers (·.keywordCase)).getD .preserve
  commaPosition := (firstSet layers (·.commaPosition)).getD .after
  alignEntries := (firstSet layers (·.alignEntries)).getD false
  alignComments := (firstSet layers (·.alignComments)).getD true
  indentTables := (firstSet layers (·.indentTables)).getD false

/-- The settings of a user for a language, which may go by any of its names. -/
def resolve (user : Overrides) (language : String) : Settings :=
  ofLayers [user, languageDefaults (Language.normalize language), globalDefaults]

/-- The settings of a language for a user who sets nothing. -/
def ofLanguage (language : String) : Settings := resolve {} language

/-- The settings where nothing is said at all. -/
def usual : Settings := ofLayers [{}, {}, globalDefaults]

end Settings

end CodeTidy
