import ObjectModel.Text.Joined

/-!
Named, nested data as an outline, and its two texts: on one line, and with every part on a line of
its own, indented by four spaces more than what holds it.
-/

namespace ObjectModel.Text

inductive Outline where
  | leaf (text : String)
  /-- A name with parts in parentheses. -/
  | wrapper (name : String) (parts : List Outline)
  /-- A name with named parts in braces. -/
  | record (name : String) (fields : List (String × Outline))
  | list (items : List Outline)
  | table (entries : List (Outline × Outline))

namespace Outline

mutual

def inline : Outline → String
  | .leaf text => text
  | .wrapper name parts => name ++ "(" ++ joined (inlineAll parts) ++ ")"
  | .record name fields => name ++ " \x7b " ++ joined (inlineFields fields) ++ " \x7d"
  | .list items => "[" ++ joined (inlineAll items) ++ "]"
  | .table entries => "\x7b" ++ joined (inlineEntries entries) ++ "\x7d"

def inlineAll : List Outline → List String
  | [] => []
  | o :: rest => inline o :: inlineAll rest

def inlineFields : List (String × Outline) → List String
  | [] => []
  | (k, o) :: rest => (k ++ ": " ++ inline o) :: inlineFields rest

def inlineEntries : List (Outline × Outline) → List String
  | [] => []
  | (k, o) :: rest => (inline k ++ ": " ++ inline o) :: inlineEntries rest

end

def indent (depth : Nat) : String := String.ofList (List.replicate (4 * depth) ' ')

mutual

/-- The text with a line for each part; `depth` is that of the line on which it starts. -/
def block (depth : Nat) : Outline → String
  | .leaf text => text
  | .wrapper name parts => name ++ "(\n" ++ blockAll (depth + 1) parts ++ indent depth ++ ")"
  | .record name fields =>
    name ++ " \x7b\n" ++ blockFields (depth + 1) fields ++ indent depth ++ "\x7d"
  | .list [] => "[]"
  | .list (o :: rest) => "[\n" ++ blockAll (depth + 1) (o :: rest) ++ indent depth ++ "]"
  | .table [] => "\x7b\x7d"
  | .table (e :: rest) =>
    "\x7b\n" ++ blockEntries (depth + 1) (e :: rest) ++ indent depth ++ "\x7d"

def blockAll (depth : Nat) : List Outline → String
  | [] => ""
  | o :: rest => indent depth ++ block depth o ++ ",\n" ++ blockAll depth rest

def blockFields (depth : Nat) : List (String × Outline) → String
  | [] => ""
  | (k, o) :: rest =>
    indent depth ++ k ++ ": " ++ block depth o ++ ",\n" ++ blockFields depth rest

def blockEntries (depth : Nat) : List (Outline × Outline) → String
  | [] => ""
  | (k, o) :: rest =>
    indent depth ++ block depth k ++ ": " ++ block depth o ++ ",\n" ++ blockEntries depth rest

end

end Outline

end ObjectModel.Text
