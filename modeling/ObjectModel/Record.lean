import ObjectModel.Process

/-!
Records: what can be enumerated by keys and values. Objects and maps are records, and so are the
host's own maps, whose keys and values become values one by one.
-/

namespace ObjectModel

class Record (ρ : Type) where
  keys : ρ → List Value
  /-- In the order of `keys`. -/
  values : ρ → List Value

/-- Host data that becomes a value without anything being made. -/
class ToValue (α : Type) where
  toValue : α → Value

instance : ToValue Value := ⟨fun v => v⟩
instance : ToValue String := ⟨.str⟩
instance : ToValue Int64 := ⟨.int⟩
instance : ToValue (MapKey Keyword) := ⟨MapKey.toValue⟩

/-- What the host leaves out is null. -/
instance {α : Type} [ToValue α] : ToValue (Option α) where
  toValue
    | none => .null
    | some a => ToValue.toValue a

instance {κ ν : Type} [ToValue κ] [ToValue ν] : Record (List (κ × ν)) where
  keys es := es.map fun e => ToValue.toValue e.1
  values es := es.map fun e => ToValue.toValue e.2

namespace Value

/-- The keys of a record; other values have none to give. -/
def recordKeys? : Value → Option (List Value)
  | object _ members => some (Record.keys members)
  | map _ entries => some (Record.keys entries)
  | _ => none

def recordValues? : Value → Option (List Value)
  | object _ members => some (Record.values members)
  | map _ entries => some (Record.values entries)
  | _ => none

/-- Keys with their values. -/
def recordPairs? : Value → Option (List (Value × Value))
  | object _ members => some (members.map fun m => (.str m.1, m.2))
  | map _ entries => some (entries.map fun e => (e.1.toValue, e.2))
  | _ => none

/-- The members of an object as a list of pairs. -/
def newEntries {ε : Type} (members : List (String × Value)) : Act ε Value := do
  newList (← newPairs (members.map fun m => (.str m.1, m.2)))

end Value

end ObjectModel
