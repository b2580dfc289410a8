import ObjectModel.Log.Level
import ObjectModel.Member.Key
import ObjectModel.Text.Quoted

/-!
What the program reports while it runs, and the line in which it is written.

A keyword's name is quoted in its line; a member's text is not.
-/

namespace ObjectModel

inductive Event where
  /-- A name was registered that was not there before. -/
  | interned (name : String)
  /-- Nil was asked for a member it does not have. -/
  | nilLookup (member : MemberKey)
  /-- Another subscriber was there first. -/
  | subscriberKept
  | initialized (preloaded registered : Nat)
deriving DecidableEq

namespace Event

def level : Event → Level
  | interned _ => .trace
  | nilLookup _ => .debug
  | subscriberKept => .debug
  | initialized _ _ => .info

def target : Event → String
  | interned _ => "quill_std_core::keyword"
  | nilLookup _ => "quill_std_core::nil"
  | subscriberKept => "quill_runtime"
  | initialized _ _ => "quill_runtime"

def message : Event → String
  | interned _ => "interned keyword"
  | nilLookup _ => "member lookup on nil"
  | subscriberKept => "log subscriber already installed, keeping it"
  | initialized _ _ => "quill runtime initialized"

/-- Names and values of what the event carries. -/
def fields : Event → List (String × String)
  | interned name => [("keyword", Text.quote name)]
  | nilLookup member => [("member", member.text)]
  | subscriberKept => []
  | initialized preloaded registered =>
    [("preloaded", String.ofList (Text.writeNat preloaded)),
      ("registered", String.ofList (Text.writeNat registered))]

end Event

/-! ### Lines -/

namespace Level

/-- The name at the right of five columns. -/
def column (l : Level) : String :=
  String.ofList (List.replicate (5 - l.name.length) ' ') ++ l.name

def colour : Level → String
  | trace => "35"
  | debug => "34"
  | info => "32"
  | warn => "33"
  | error => "31"

end Level

namespace Event

def timestamp : String := "<time>"

/-- Text between the terminal sequence for a style and the one that ends it. -/
def styled (style text : String) : String := "\x1b[" ++ style ++ "m" ++ text ++ "\x1b[0m"

def plainFields : List (String × String) → String
  | [] => ""
  | (name, value) :: rest => " " ++ name ++ "=" ++ value ++ plainFields rest

def styledFields : List (String × String) → String
  | [] => ""
  | (name, value) :: rest => " " ++ styled "3" name ++ styled "2" "=" ++ value ++ styledFields rest

def plainLine (e : Event) : String :=
  timestamp ++ " " ++ e.level.column ++ " " ++ e.target ++ ": " ++ e.message ++
    plainFields e.fields ++ "\n"

def styledLine (e : Event) : String :=
  styled "2" timestamp ++ " " ++ styled e.level.colour e.level.column ++ " " ++
    styled "2" e.target ++ styled "2" ":" ++ " " ++ e.message ++ styledFields e.fields ++ "\n"

/-- The line of an event, with terminal styles if `ansi`. -/
def line (ansi : Bool) (e : Event) : String := if ansi then e.styledLine else e.plainLine

end Event

end ObjectModel
