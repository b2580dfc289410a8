import ObjectModel.Process
import ObjectModel.Settings.Basic

/-!
Starting a process from its settings: the level is checked, then the subscriber installed, then
the keywords registered. A bad level changes nothing.
-/

namespace ObjectModel

/-- Registers names in order; a repeated name gives the same keyword again. -/
def Act.internAll {ε : Type} : List String → Act ε (List Keyword)
  | [] => pure []
  | name :: rest => do
    let k ← Act.intern name
    return k :: (← internAll rest)

/-- Starts a process; the keywords are those of the settings, in their order. -/
def Settings.start (s : Settings) : Act SettingsError (List Keyword) := do
  match s.level with
  | .error e => throw e
  | .ok level =>
    modify fun p => p.subscribe level s.logAnsi
    let ks ← Act.internAll s.preloadKeywords
    Act.emit (.initialized ks.length (← Act.registry).size)
    return ks

end ObjectModel
