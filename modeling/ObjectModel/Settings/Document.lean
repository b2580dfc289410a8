import ObjectModel.Settings.Basic
import ObjectModel.Toml.Document

/-!
Settings read from the entry `runtime` of a TOML document.

As a table the entry gives the settings by name, as an array by position; what it leaves out is
standard and what it has besides is ignored. The whole document must be valid, and only then is
the level looked at.
-/

namespace ObjectModel.Settings

def textOr (standard : String) : Option Toml.Value → Option String
  | none => some standard
  | some (.string s) => some s
  | some _ => none

def flagOr (standard : Bool) : Option Toml.Value → Option Bool
  | none => some standard
  | some (.boolean b) => some b
  | some _ => none

/-- The texts of an array that holds nothing else. -/
def texts? : List Toml.Value → Option (List String)
  | [] => some []
  | .string s :: rest => (texts? rest).map (s :: ·)
  | _ :: _ => none

def textsOr (standard : List String) : Option Toml.Value → Option (List String)
  | none => some standard
  | some (.array items) => texts? items
  | some _ => none

/-- Settings from the three values, where they are given. -/
def ofFields? (logLevel logAnsi preloadKeywords : Option Toml.Value) : Option Settings := do
  return {
    logLevel := ← textOr standard.logLevel logLevel
    logAnsi := ← flagOr standard.logAnsi logAnsi
    preloadKeywords := ← textsOr standard.preloadKeywords preloadKeywords }

/-- Settings from the entry; a date has none of them. -/
def ofEntry? : Toml.Value → Option Settings
  | .table ms =>
    ofFields? (Entries.get? "log_level" ms) (Entries.get? "log_ansi" ms)
      (Entries.get? "preload_keywords" ms)
  | .array items => ofFields? items[0]? items[1]? items[2]?
  | .dateTime _ => some standard
  | _ => none

def ofMembers? (ms : List (String × Toml.Value)) : Option Settings :=
  match Entries.get? "runtime" ms with
  | none => some standard
  | some v => ofEntry? v

/-- Settings from the text of a document. -/
def ofToml (text : String) : Except SettingsError Settings :=
  match (Toml.document? text).bind ofMembers? with
  | none => .error .malformed
  | some s =>
    match s.level with
    | .ok _ => .ok s
    | .error e => .error e

end ObjectModel.Settings
