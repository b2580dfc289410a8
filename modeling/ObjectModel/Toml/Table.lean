import ObjectModel.Toml.Value

/-!
Tables while they are put together.

How a table came to be decides what may be added to it later: one with a header of its own is
closed to dotted keys, one that a header only passed through may still get its own header, and one
that dotted keys made may only grow by dotted keys.
-/

namespace ObjectModel.Toml

inductive Origin where
  /-- A header of its own. -/
  | header
  /-- The header of a table inside it. -/
  | implied
  /-- A dotted key. -/
  | dotted
deriving DecidableEq

inductive Item where
  | value (v : Value)
  | table (origin : Origin) (members : List (String × Item))
  /-- Tables under one repeated header. -/
  | tables (elements : List (List (String × Item)))

/-- A name with the names before it, if it is dotted. -/
structure Key where
  path : List String
  last : String
deriving DecidableEq

def Key.parts (k : Key) : List String := k.path ++ [k.last]

abbrev Members := List (String × Item)

namespace Members

def updateLast (f : Members → Option Members) (elements : List Members) : Option (List Members) :=
  match elements.getLast? with
  | none => none
  | some e => (f e).map fun e => elements.dropLast ++ [e]

/-- Adds a value that was not there, under a dotted name. -/
def add (last : String) (v : Value) : List String → Members → Option Members
  | [], ms => if Entries.contains last ms then none else some (Entries.insert last (.value v) ms)
  | step :: path, ms =>
    match Entries.get? step ms with
    | none => do
      let inner ← add last v path []
      return Entries.insert step (.table .dotted inner) ms
    | some (.table origin inner) =>
      if origin = .header ∨ (path.isEmpty ∧ origin ≠ .dotted) then none
      else do
        let inner ← add last v path inner
        return Entries.insert step (.table origin inner) ms
    | some (.tables elements) =>
      if path.isEmpty then none
      else do
        let elements ← updateLast (add last v path) elements
        return Entries.insert step (.tables elements) ms
    | some (.value _) => none

/-- Changes the table that a path of headers leads to. Of tables under a repeated header it is the
last one; a table that is not there is made. -/
def update (f : Members → Option Members) : List String → Members → Option Members
  | [], ms => f ms
  | step :: path, ms =>
    match Entries.get? step ms with
    | none => do
      let inner ← update f path []
      return Entries.insert step (.table .implied inner) ms
    | some (.table origin inner) => do
      let inner ← update f path inner
      return Entries.insert step (.table origin inner) ms
    | some (.tables elements) => do
      let elements ← updateLast (update f path) elements
      return Entries.insert step (.tables elements) ms
    | some (.value _) => none

/-- The effect of a header: the table is new, or was only implied so far. -/
def openTable (name : String) (ms : Members) : Option Members :=
  match Entries.get? name ms with
  | none => some (Entries.insert name (.table .header []) ms)
  | some (.table .implied inner) => some (Entries.insert name (.table .header inner) ms)
  | some _ => none

/-- The effect of a header that may be repeated. -/
def openElement (name : String) (ms : Members) : Option Members :=
  match Entries.get? name ms with
  | none => some (Entries.insert name (.tables [[]]) ms)
  | some (.tables elements) => some (Entries.insert name (.tables (elements ++ [[]])) ms)
  | some _ => none

/-- Adds pairs one after the other. -/
def addAll (ms : Members) (pairs : List (Key × Value)) : Option Members :=
  pairs.foldlM (fun ms p => add p.1.last p.2 p.1.path ms) ms

end Members

mutual

/-- The finished value. -/
def Item.toValue : Item → Value
  | .value v => v
  | .table _ members => .table (finishMembers members)
  | .tables elements => .array (finishTables elements)

def finishMembers : List (String × Item) → List (String × Value)
  | [] => []
  | (k, item) :: rest => (k, item.toValue) :: finishMembers rest

def finishTables : List (List (String × Item)) → List Value
  | [] => []
  | members :: rest => .table (finishMembers members) :: finishTables rest

end

end ObjectModel.Toml
