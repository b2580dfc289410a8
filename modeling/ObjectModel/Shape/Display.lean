import ObjectModel.Shape.Basic
import ObjectModel.Number.Notation
import ObjectModel.Text.Joined

/-!
The text of a value for its reader: strings and names as they are, numbers without exponent,
aggregates in brackets.
-/

namespace ObjectModel

def intText (n : Int64) : String := String.ofList (Text.writeInt n.toInt)

def boolText (b : Bool) : String := if b then "true" else "false"

def MapKey.display : MapKey String → String
  | .str s => s
  | .int n => intText n
  | .bool b => boolText b
  | .keyword name => name

namespace Shape

mutual

def display : Shape → String
  | .nil => "nil"
  | .null => "null"
  | .bool b => boolText b
  | .int n => intText n
  | .float x => x.text .plain
  | .str s => s
  | .keyword name => name
  | .list items => "[" ++ Text.joined (displayItems items) ++ "]"
  | .object members => "\x7b" ++ Text.joined (displayMembers members) ++ "\x7d"
  | .map entries => "Map \x7b" ++ Text.joined (displayEntries entries) ++ "\x7d"
  | .function name _ => "<function " ++ name ++ ">"

def displayItems : List Shape → List String
  | [] => []
  | s :: rest => display s :: displayItems rest

def displayMembers : List (String × Shape) → List String
  | [] => []
  | (k, s) :: rest => (k ++ ": " ++ display s) :: displayMembers rest

def displayEntries : List (MapKey String × Shape) → List String
  | [] => []
  | (k, s) :: rest => (k.display ++ " => " ++ display s) :: displayEntries rest

end

end Shape

end ObjectModel
