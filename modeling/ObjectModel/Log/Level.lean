import ObjectModel.Text.Blank
import ObjectModel.Text.Numeral

/-!
Severity levels, and how one is written: by name in any ASCII case or by number, with white space
around it.
-/

namespace ObjectModel

inductive Level where
  | error
  | warn
  | info
  | debug
  | trace
deriving DecidableEq

namespace Level

def all : List Level := [error, warn, info, debug, trace]

def name : Level → String
  | error => "ERROR"
  | warn => "WARN"
  | info => "INFO"
  | debug => "DEBUG"
  | trace => "TRACE"

/-- The more is written at a level, the higher its number. -/
def verbosity : Level → Nat
  | error => 1
  | warn => 2
  | info => 3
  | debug => 4
  | trace => 5

/-- A subscriber at level `limit` writes what is at least as severe. -/
def within (limit l : Level) : Bool := l.verbosity ≤ limit.verbosity

def ofVerbosity? (n : Nat) : Option Level := all.find? fun l => l.verbosity == n

/-- The level with this name; letters outside ASCII have no other case. -/
def ofName? (cs : List Char) : Option Level :=
  all.find? fun l => l.name.toList == cs.map Char.toUpper

def ofText? (s : String) : Option Level :=
  let cs := Text.trim s.toList
  match Text.readUnsigned? cs with
  | some n => ofVerbosity? n
  | none => ofName? cs

theorem ofVerbosity?_verbosity (l : Level) : ofVerbosity? l.verbosity = some l := by
  cases l <;> decide

end Level

end ObjectModel
