import ObjectModel.Settings.Basic
import ObjectModel.Toml.Writer

/-!
The two documents that write settings: as a table by name and as an array by position.
-/

namespace ObjectModel.Settings

open Toml (writeString writeBool writeStrings)

def tableText (s : Settings) : String :=
  "[runtime]\nlog_level = " ++ writeString s.logLevel ++ "\nlog_ansi = " ++ writeBool s.logAnsi ++
    "\npreload_keywords = " ++ writeStrings s.preloadKeywords ++ "\n"

def arrayText (s : Settings) : String :=
  "runtime = [" ++ writeString s.logLevel ++ ", " ++ writeBool s.logAnsi ++ ", " ++
    writeStrings s.preloadKeywords ++ "]\n"

end ObjectModel.Settings
