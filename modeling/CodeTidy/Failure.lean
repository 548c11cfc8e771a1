import CodeTidy.Json.Error
import CodeTidy.Limiter
import CodeTidy.Settings.Reading
import CodeTidy.Sql.Token

/-!
# Failures of requests

Every failure has a kind, by which callers tell failures apart, and a message for people. The
failures of foreign backends, plugins and modules carry their own words.
-/

namespace CodeTidy

/-- The kinds of failures. -/
inductive Failure.Kind where
  | oversizedInput
  | unsupportedLanguage
  | rateLimited
  | backendUnavailable
  | backendLoadFailure
  | backendFormatFailure
  | invalidInput
deriving DecidableEq

/-- The name of a kind. -/
def Failure.Kind.name : Failure.Kind → String
  | .oversizedInput => "oversized-input"
  | .unsupportedLanguage => "unsupported-language"
  | .rateLimited => "rate-limited"
  | .backendUnavailable => "backend-unavailable"
  | .backendLoadFailure => "backend-load-failure"
  | .backendFormatFailure => "backend-format-failure"
  | .invalidInput => "invalid-input"

/-- Why a request failed. -/
inductive Failure where
  /-- The code has more bytes than are accepted. -/
  | oversized (bytes limit : Nat)
  /-- No backend is bound to the language. -/
  | unsupported (language : String)
  /-- The caller has used up its quota. -/
  | rateLimited (quota : Quota)
  /-- The settings bag is malformed. -/
  | settings (error : Overrides.BagError)
  /-- The backend cannot work here. -/
  | unavailable (id : String)
  /-- The backend broke down, with the words it left behind, if any. -/
  | crashed (id : String) (detail : Option String)
  /-- The beautifier has no layout for the language. -/
  | noLayout (language : String)
  /-- There is no plugin of this name. -/
  | unknownPlugin (id : String)
  /-- None of the plugins loaded for the language supports it. -/
  | noPlugin (language : String)
  /-- A module could not be set up. -/
  | moduleSetup (name reason : String)
  /-- A module rejected the code. -/
  | moduleRejection (name reason : String)
  /-- The code is not JSON. -/
  | json (fault : Json.Fault)
  /-- The code is SQL that is left open. -/
  | sql (fault : Sql.Fault)
  /-- The code is YAML with comments, which would be lost. -/
  | commentedYaml
  /-- The code is not YAML. -/
  | invalidYaml
  /-- The code is YAML that has no written form. -/
  | unwritableYaml
  /-- A foreign backend or loader failed and says so in its own words. -/
  | foreign (kind : Failure.Kind) (message : String)

namespace Failure

/-- A foreign loader failed with these words. -/
def foreignLoad (message : String) : Failure := .foreign .backendLoadFailure message

/-- A foreign backend rejected the code with these words. -/
def foreignRejection (message : String) : Failure := .foreign .backendFormatFailure message

/-- The kind of a failure. -/
def kind : Failure → Kind
  | .oversized .. => .oversizedInput
  | .unsupported _ => .unsupportedLanguage
  | .rateLimited _ => .rateLimited
  | .settings _ => .invalidInput
  | .unavailable _ => .backendUnavailable
  | .unknownPlugin _ | .noPlugin _ | .moduleSetup .. => .backendLoadFailure
  | .crashed .. | .noLayout _ | .moduleRejection .. | .json _ | .sql _ | .commentedYaml
  | .invalidYaml | .unwritableYaml => .backendFormatFailure
  | .foreign kind _ => kind

/-- The failure in words. -/
def message : Failure → String
  | .oversized bytes limit =>
    "Input is " ++ toString bytes ++ " bytes, which exceeds the " ++ toString limit
      ++ " byte limit"
  | .unsupported language => "No formatter available for language '" ++ language ++ "'"
  | .rateLimited q =>
    "Too many format requests (limit is " ++ toString q.requests ++ " per "
      ++ toString q.windowMs ++ "ms)"
  | .settings e => e.message
  | .unavailable id => "Formatter '" ++ id ++ "' is not available in this environment"
  | .crashed id detail => "Formatter '" ++ id ++ "' crashed: " ++ detail.getD "unknown panic"
  | .noLayout language => "Beautifier does not handle language '" ++ language ++ "'"
  | .unknownPlugin id => "Unknown formatter plugin '" ++ id ++ "'"
  | .noPlugin language => "No loaded plugin handles '" ++ language ++ "'"
  | .moduleSetup name reason => "Failed to initialize " ++ name ++ ": " ++ reason
  | .moduleRejection name reason => name ++ " failed: " ++ reason
  | .json fault => "Invalid JSON: " ++ fault.message
  | .sql fault => fault.message
  | .commentedYaml => "YAML with comments cannot be reformatted without losing them"
  | .invalidYaml => "Invalid YAML"
  | .unwritableYaml => "Failed to write YAML"
  | .foreign _ message => message

end Failure

end CodeTidy
