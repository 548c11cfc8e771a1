import CodeTidy.Configuration.Basic
import CodeTidy.Toml.Excerpt
import CodeTidy.Toml.Reader

/-!
# Reading configurations

A configuration is a TOML document. Keys are read in ascending order and the first fault decides
the answer. The section on the service knows its five keys only, while any other unknown key is
passed over. A section given as an array is read as the values of its fields in their order.
-/

namespace CodeTidy

namespace ServiceSection

/-- One of the values of the section. -/
inductive Field where
  | maxInputBytes
  | cacheCapacity
  | rateLimit
  | rateWindowMs
  | wasmBase
deriving DecidableEq

/-- The keys of the section, each with its value, in their order. -/
def fields : List (String × Field) :=
  [("max-input-bytes", .maxInputBytes), ("cache-capacity", .cacheCapacity),
    ("rate-limit", .rateLimit), ("rate-window-ms", .rateWindowMs), ("wasm-base", .wasmBase)]

/-- Sets one value of the section. -/
def setField (s : ServiceSection) (field : Field) (d : Datum) :
    Except Datum.Fault ServiceSection := do
  match field with
  | .maxInputBytes => return { s with maxInputBytes := ← d.toNatural 0x10000000000000000 "usize" }
  | .cacheCapacity => return { s with cacheCapacity := ← d.toNatural 0x10000000000000000 "usize" }
  | .rateLimit => return { s with rateLimit := ← d.toNatural 0x100000000 "u32" }
  | .rateWindowMs => return { s with rateWindowMs := ← d.toNatural 0x10000000000000000 "u64" }
  | .wasmBase => return { s with wasmBase := ← d.toText }

/-- The fault of a key that the section does not know. -/
def unknown (key : String) : Datum.Cause := .unknownField key (fields.map (·.1))

/-- Reads the members of a table on top of a section. -/
def readMembers (s : ServiceSection) :
    List (String × Datum) → Except Datum.Fault ServiceSection
  | [] => .ok s
  | (key, d) :: rest =>
    match fields.lookup key with
    | none => .error ⟨unknown key, .key [.key key]⟩
    | some field =>
      match Datum.within (.key key) (s.setField field d) with
      | .error f => .error f
      | .ok s => readMembers s rest

/-- Reads values for the fields in their order, the first of which has the given index. -/
def readItems (s : ServiceSection) (index : Nat) :
    List Field → List Datum → Except Datum.Fault ServiceSection
  | field :: fields, d :: ds =>
    match Datum.within (.item index) (s.setField field d) with
    | .error f => .error f
    | .ok s => readItems s (index + 1) fields ds
  | _, _ => .ok s

/-- Reads the section. A moment counts as a table with a key that is unknown. -/
def ofDatum : Datum → Except Datum.Fault ServiceSection
  | .map members => readMembers {} members
  | .list ds => readItems {} 0 (fields.map (·.2)) ds
  | .moment _ => Datum.fail (unknown "$__toml_private_datetime")
  | d => d.mismatch "struct ServiceSection"

end ServiceSection

namespace Configuration

/-- Reads the sections of a document on top of a configuration. -/
def readSections (c : Configuration) : List (String × Datum) → Except Datum.Fault Configuration
  | [] => .ok c
  | (key, d) :: rest => do
    let c ← Datum.within (.key key) <|
      if key == "settings" then do
        return { c with settings := ← Overrides.ofDatum .toml d }
      else if key == "service" then do
        return { c with service := ← ServiceSection.ofDatum d }
      else do
        d.passOver
        return c
    readSections c rest

/-- Reads a configuration from the data of a document. -/
def ofDatum : Datum → Except Datum.Fault Configuration
  | .map sections => readSections {} sections
  | d => d.mismatch "struct Config"

/-- Why a text is no configuration. -/
inductive Rejection where
  /-- The text is not TOML. -/
  | malformed
  /-- The document has the wrong shape. The excerpt shows where. -/
  | wrongShape (excerpt : List Char) (cause : Datum.Cause)
  | flawed (flaw : Flaw)

/-- Reads a configuration. -/
def parse (content : List Char) : Except Rejection Configuration :=
  match Toml.parse? content with
  | none => .error .malformed
  | some tree =>
    match ofDatum tree.toDatum with
    | .error f =>
      let span := tree.spanOf ⟨0, Text.byteLength content⟩ f.place
      .error (.wrongShape (Toml.excerpt content span) f.cause)
    | .ok c =>
      match c.flaw? with
      | some flaw => .error (.flawed flaw)
      | none => .ok c

/-- The rejection of the file at a path in words. -/
def Rejection.message (path : String) : Rejection → String
  | .malformed => "Failed to parse " ++ path ++ ": malformed TOML\n"
  | .wrongShape excerpt cause =>
    "Failed to parse " ++ path ++ ": " ++ String.ofList excerpt ++ cause.message .toml ++ "\n"
  | .flawed flaw => flaw.message

end Configuration

end CodeTidy
