import CodeTidy.Settings.Basic

/-!
# Reading overrides

Overrides are read from a map of settings, member by member in the order in which they are
written, and the first member at fault decides the answer. Keys that name no setting are passed
over, `null` leaves a field open, and `singleQuote` may also be called `quoteStyle` but be given
only once. A list is read as the values of the fields in their order.
-/

namespace CodeTidy

/-- One of the settings. -/
inductive Field where
  | indentSize
  | useTabs
  | singleQuote
  | semi
  | trailingComma
  | lineWrap
  | keywordCase
  | commaPosition
  | alignEntries
  | alignComments
  | indentTables
deriving DecidableEq

namespace Field

/-- The settings in their order. -/
def all : List Field :=
  [.indentSize, .useTabs, .singleQuote, .semi, .trailingComma, .lineWrap, .keywordCase,
    .commaPosition, .alignEntries, .alignComments, .indentTables]

/-- The key of a setting. -/
def key : Field → String
  | .indentSize => "indentSize"
  | .useTabs => "useTabs"
  | .singleQuote => "singleQuote"
  | .semi => "semi"
  | .trailingComma => "trailingComma"
  | .lineWrap => "lineWrap"
  | .keywordCase => "keywordCase"
  | .commaPosition => "commaPosition"
  | .alignEntries => "alignEntries"
  | .alignComments => "alignComments"
  | .indentTables => "indentTables"

/-- The setting that a key names. -/
def ofKey? (key : String) : Option Field :=
  if key == "quoteStyle" then some .singleQuote else all.find? (·.key == key)

end Field

namespace Overrides

/-- Reads a value that may be left open. -/
def optional {α : Type} (read : Datum → Except Datum.Fault α) :
    Datum → Except Datum.Fault (Option α)
  | .null => .ok none
  | d => do return some (← read d)

/-- Sets one field from its value. -/
def setField (how : Datum.Notation) (o : Overrides) (field : Field) (d : Datum) :
    Except Datum.Fault Overrides := do
  match field with
  | .indentSize => return { o with indentSize := ← optional IndentToken.ofDatum d }
  | .useTabs => return { o with useTabs := ← optional Datum.toBool d }
  | .singleQuote => return { o with singleQuote := ← optional Datum.toBool d }
  | .semi => return { o with semi := ← optional Datum.toBool d }
  | .trailingComma =>
    return { o with trailingComma := ← optional (Datum.toVariant how TrailingComma.named) d }
  | .lineWrap => return { o with lineWrap := ← optional LineWidth.ofDatum d }
  | .keywordCase =>
    return { o with keywordCase := ← optional (Datum.toVariant how KeywordCase.named) d }
  | .commaPosition =>
    return { o with commaPosition := ← optional (Datum.toVariant how CommaPosition.named) d }
  | .alignEntries => return { o with alignEntries := ← optional Datum.toBool d }
  | .alignComments => return { o with alignComments := ← optional Datum.toBool d }
  | .indentTables => return { o with indentTables := ← optional Datum.toBool d }

/-- Reads the members of a map on top of `o`. `seen` holds the settings given so far. -/
def readMembers (how : Datum.Notation) (o : Overrides) (seen : List Field) :
    List (String × Datum) → Except Datum.Fault Overrides
  | [] => .ok o
  | (key, d) :: rest =>
    match Field.ofKey? key with
    | none =>
      match how, d.passOver with
      | .toml, .error f => .error (f.under (.key key))
      | _, _ => readMembers how o seen rest
    | some field =>
      if seen.contains field then Datum.fail (.duplicateField field.key)
      else
        match Datum.within (.key key) (setField how o field d) with
        | .error f => .error f
        | .ok o => readMembers how o (field :: seen) rest

/-- Reads values for the fields in their order, the first of which has the given index. -/
def readItems (how : Datum.Notation) (o : Overrides) (index : Nat) :
    List Field → List Datum → Except Datum.Fault Overrides
  | field :: fields, d :: ds =>
    match Datum.within (.item index) (setField how o field d) with
    | .error f => .error f
    | .ok o => readItems how o (index + 1) fields ds
  | _, _ => .ok o

/-- Reads overrides from a map or a list. -/
def ofDatum (how : Datum.Notation) : Datum → Except Datum.Fault Overrides
  | .map members => readMembers how {} [] members
  | .list ds => readItems how {} 0 Field.all ds
  | .moment _ => .ok {}
  | d => d.mismatch "struct RawSettings"

/-- Why a settings bag was rejected. -/
inductive BagError where
  | notAnObject
  | invalid (fault : Datum.Fault)

/-- The rejection in words. -/
def BagError.message : BagError → String
  | .notAnObject => "Settings must be a key-value object"
  | .invalid fault => "Invalid settings: " ++ fault.cause.message .json

/-- Reads a settings bag: an object, or `null` for no settings. -/
def ofJson : Json → Except BagError Overrides
  | .null => .ok {}
  | .obj members =>
    match readMembers .json {} [] (Datum.ofMembers members) with
    | .ok o => .ok o
    | .error f => .error (.invalid f)
  | _ => .error .notAnObject

end Overrides

end CodeTidy
