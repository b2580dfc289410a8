import ObjectModel.Value.Basic

/-!
What can be seen of a value from outside: its structure with keywords by name and without
identities. Two values with the same shape print alike, wherever and whenever they were made.
-/

namespace ObjectModel

inductive Shape where
  | nil
  | null
  | bool (b : Bool)
  | int (n : Int64)
  | float (x : Binary64)
  | str (s : String)
  | keyword (name : String)
  | list (items : List Shape)
  | object (members : List (String × Shape))
  | map (entries : List (MapKey String × Shape))
  /-- What a function does is not seen. -/
  | function (name : String) (receiver : Option Shape)

instance : Inhabited Shape := ⟨.nil⟩

namespace Value

mutual

def shape (names : Keyword → String) : Value → Shape
  | .nil => .nil
  | .null => .null
  | .bool b => .bool b
  | .int n => .int n
  | .float x => .float x
  | .str s => .str s
  | .keyword k => .keyword (names k)
  | .list _ items => .list (shapes names items)
  | .object _ members => .object (memberShapes names members)
  | .map _ entries => .map (entryShapes names entries)
  | .function ⟨name, _, none⟩ => .function name none
  | .function ⟨name, _, some (_, receiver)⟩ => .function name (some (shape names receiver))

def shapes (names : Keyword → String) : List Value → List Shape
  | [] => []
  | v :: rest => shape names v :: shapes names rest

def memberShapes (names : Keyword → String) : List (String × Value) → List (String × Shape)
  | [] => []
  | (k, v) :: rest => (k, shape names v) :: memberShapes names rest

def entryShapes (names : Keyword → String) :
    List (MapKey Keyword × Value) → List (MapKey String × Shape)
  | [] => []
  | (k, v) :: rest => (k.map names, shape names v) :: entryShapes names rest

end

theorem shapes_eq_map (names : Keyword → String) (vs : List Value) :
    shapes names vs = vs.map (shape names) := by
  induction vs with
  | nil => rfl
  | cons v rest ih => rw [shapes, ih]; rfl

theorem memberShapes_eq_map (names : Keyword → String) (ms : List (String × Value)) :
    memberShapes names ms = ms.map fun m => (m.1, shape names m.2) := by
  induction ms with
  | nil => rfl
  | cons m rest ih => obtain ⟨k, v⟩ := m; rw [memberShapes, ih]; rfl

theorem entryShapes_eq_map (names : Keyword → String) (es : List (MapKey Keyword × Value)) :
    entryShapes names es = es.map fun e => (e.1.map names, shape names e.2) := by
  induction es with
  | nil => rfl
  | cons e rest ih => obtain ⟨k, v⟩ := e; rw [entryShapes, ih]; rfl

end Value

end ObjectModel
