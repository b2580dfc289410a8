import ObjectModel.Shape.Display
import ObjectModel.Text.Outline
import ObjectModel.Text.Quoted

/-!
The text of a value for its programmer: every kind named, every string quoted, numbers that show
that they are not whole. `Shape.debug` is one line, `Shape.pretty` a line for each part.
-/

namespace ObjectModel

open Text (Outline)

def quotedLeaf (s : String) : Outline := .leaf (Text.quote s)

def keywordOutline (name : String) : Outline := .wrapper "Keyword" [quotedLeaf name]

namespace MapKey

def outline : MapKey String → Outline
  | .str s => .wrapper "Str" [quotedLeaf s]
  | .int n => .wrapper "Int" [.leaf (intText n)]
  | .bool b => .wrapper "Bool" [.leaf (boolText b)]
  | .keyword name => .wrapper "Keyword" [keywordOutline name]

def debug (k : MapKey String) : String := k.outline.inline

end MapKey

namespace Shape

mutual

def outline : Shape → Outline
  | .nil => .leaf "Nil"
  | .null => .leaf "Null"
  | .bool b => .wrapper "Bool" [.leaf (boolText b)]
  | .int n => .wrapper "Int" [.leaf (intText n)]
  | .float x => .wrapper "Float" [.leaf (x.text .marked)]
  | .str s => .wrapper "Str" [quotedLeaf s]
  | .keyword name => .wrapper "Keyword" [keywordOutline name]
  | .list items => .wrapper "List" [.list (outlines items)]
  | .object members =>
    .wrapper "Object" [.record "ObjectLiteral" [("members", .table (memberOutlines members))]]
  | .map entries => .wrapper "Map" [.table (entryOutlines entries)]
  | .function name receiver =>
    .wrapper "Function"
      [.record "Function" [("name", quotedLeaf name), ("bound", .leaf (boolText receiver.isSome))]]

def outlines : List Shape → List Outline
  | [] => []
  | s :: rest => outline s :: outlines rest

def memberOutlines : List (String × Shape) → List (Outline × Outline)
  | [] => []
  | (k, s) :: rest => (quotedLeaf k, outline s) :: memberOutlines rest

def entryOutlines : List (MapKey String × Shape) → List (Outline × Outline)
  | [] => []
  | (k, s) :: rest => (k.outline, outline s) :: entryOutlines rest

end

def debug (s : Shape) : String := s.outline.inline

def pretty (s : Shape) : String := s.outline.block 0

end Shape

namespace MemberKey

def outline : MemberKey → Outline
  | .name s => .wrapper "Name" [quotedLeaf s]
  | .capability c => .wrapper "Capability" [.leaf c.label]

def debug (k : MemberKey) : String := k.outline.inline

end MemberKey

def LookupError.debug (e : LookupError) : String :=
  (Outline.record "PropertyLookupError" [("member", e.member.outline)]).inline

end ObjectModel
