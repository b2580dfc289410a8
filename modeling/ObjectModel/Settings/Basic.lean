import ObjectModel.Log.Level
import ObjectModel.Shape.Debug

/-!
The settings a process starts with.
-/

namespace ObjectModel

open Text (Outline)

structure Settings where
  logLevel : String
  logAnsi : Bool
  preloadKeywords : List String
deriving DecidableEq

inductive SettingsError where
  /-- The document cannot be read, or a setting has a wrong type. -/
  | malformed
  | invalidLevel (value : String)
deriving DecidableEq

def SettingsError.message : SettingsError → String
  | malformed => "TOML parse error: <toml>"
  | invalidLevel value =>
    "Invalid log level '" ++ value ++ "': expected one of trace, debug, info, warn, error"

namespace Settings

def standard : Settings := ⟨"warn", false, []⟩

/-- The level that `logLevel` writes. -/
def level (s : Settings) : Except SettingsError Level :=
  match Level.ofText? s.logLevel with
  | some l => .ok l
  | none => .error (.invalidLevel s.logLevel)

def debug (s : Settings) : String :=
  (Outline.record "RuntimeConfig"
    [("log_level", quotedLeaf s.logLevel), ("log_ansi", .leaf (boolText s.logAnsi)),
      ("preload_keywords", .list (s.preloadKeywords.map quotedLeaf))]).inline

end Settings

end ObjectModel
