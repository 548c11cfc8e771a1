import CodeTidy.Service
import CodeTidy.Text.Blank

/-!
# Configurations

A configuration has two sections: settings, which hold for all requests unless a request says
otherwise, and the policy of the service.
-/

namespace CodeTidy

/-- The section on the service. -/
structure ServiceSection where
  maxInputBytes : Nat := 1048576
  cacheCapacity : Nat := Cache.usualCapacity
  /-- The requests admitted in a window, where zero stands for no limit. -/
  rateLimit : Nat := 10
  rateWindowMs : Nat := 1000
  /-- The place of the files of binary modules. -/
  wasmBase : String := "wasm"
deriving DecidableEq

/-- A configuration. -/
structure Configuration where
  settings : Overrides := {}
  service : ServiceSection := {}
deriving DecidableEq

/-- The section as a JSON object. -/
def ServiceSection.toJson (s : ServiceSection) : Json :=
  .obj [("max-input-bytes", .ofNat s.maxInputBytes), ("cache-capacity", .ofNat s.cacheCapacity),
    ("rate-limit", .ofNat s.rateLimit), ("rate-window-ms", .ofNat s.rateWindowMs),
    ("wasm-base", .str s.wasmBase)]

namespace Configuration

/-- The name of the file that holds a configuration. -/
def fileName : String := ".codeview.toml"

/-- The policy of a service with this configuration. -/
def policy (c : Configuration) : Service.Config where
  maxInputBytes := c.service.maxInputBytes
  cacheCapacity := c.service.cacheCapacity
  quota := ⟨c.service.rateLimit, c.service.rateWindowMs⟩

/-- The configuration as a JSON object. -/
def toJson (c : Configuration) : Json :=
  .obj [("settings", c.settings.toJson), ("service", c.service.toJson)]

/-- Why a configuration of the right shape is rejected. -/
inductive Flaw where
  /-- Requests are limited, but in windows without length. -/
  | emptyWindow
  /-- The place of the module files is blank. -/
  | blankBase
deriving DecidableEq

/-- The flaw in words. -/
def Flaw.message : Flaw → String
  | .emptyWindow =>
    "Invalid value for service.rate-window-ms: must be positive when rate-limit is set"
  | .blankBase => "Invalid value for service.wasm-base: must not be empty"

/-- The first flaw of a configuration. -/
def flaw? (c : Configuration) : Option Flaw :=
  if 0 < c.service.rateLimit && c.service.rateWindowMs == 0 then some .emptyWindow
  else if Text.allBlank c.service.wasmBase.toList then some .blankBase
  else none

end Configuration

end CodeTidy
