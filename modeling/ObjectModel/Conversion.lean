import ObjectModel.Host

/-!
Host data that becomes a value. A conversion may have to make something: a list of the host becomes
a new list each time that it is converted, with an identity of its own. So the maps of the host are
enumerated in a process, and a second pass over one converts everything again.
-/

namespace ObjectModel

/-! ### Drafts -/

/-- An aggregate without what is in it. -/
inductive Frame where
  | list
  | object (keys : List String)
  | map (keys : List (MapKey Keyword))

/-- The aggregate with these parts in it, which is built in their order. -/
def Frame.value (i : Ident) (parts : List Value) : Frame → Value
  | list => .list i parts
  | object keys => .object i (Entries.ofList (keys.zip parts))
  | map keys => .map i (Entries.ofList (keys.zip parts))

/-- What a conversion gives, before anything of it has been made. -/
inductive Draft where
  /-- A value that there is already. -/
  | held (v : Value)
  | native (name : String) (code : Code MemberKey Value)
  | aggregate (frame : Frame) (parts : List Draft)

namespace Draft

variable {ε : Type}

mutual

/-- An aggregate is made after its parts. -/
def make : Draft → Act ε Value
  | held v => pure v
  | native name code => return .function ⟨name, .native (← Act.fresh) code, none⟩
  | aggregate frame parts => do
    let vs ← makeAll parts
    return frame.value (← Act.fresh) vs

def makeAll : List Draft → Act ε (List Value)
  | [] => pure []
  | d :: ds => do
    let v ← make d
    return v :: (← makeAll ds)

end

theorem makeAll_held (vs : List Value) :
    (makeAll (vs.map held) : Act ε (List Value)) = pure vs := by
  induction vs with
  | nil => rfl
  | cons v vs ih =>
    rw [List.map_cons, makeAll, make, ih]
    rfl

end Draft

/-! ### Conversions -/

/-- Host data that converts into a value, by making what it drafts and doing nothing else. -/
class IntoValue (α : Type) where
  into {ε : Type} : α → Act ε Value
  draft : α → Draft
  into_eq {ε : Type} (a : α) : (into a : Act ε Value) = (draft a).make

instance : ToValue (Host Keyword) := ⟨Host.toValue⟩
instance : ToValue Function := ⟨.function⟩

namespace IntoValue

/-- A conversion that makes nothing. -/
@[reducible] def ofToValue {α : Type} [ToValue α] : IntoValue α where
  into a := pure (ToValue.toValue a)
  draft a := .held (ToValue.toValue a)
  into_eq a := by rw [Draft.make]

instance : IntoValue Value := ofToValue
instance : IntoValue String := ofToValue
instance : IntoValue Int64 := ofToValue
instance : IntoValue (MapKey Keyword) := ofToValue
instance : IntoValue (Host Keyword) := ofToValue
instance : IntoValue Function := ofToValue

instance : IntoValue (List Value) where
  into vs := Value.newList vs
  draft vs := .aggregate .list (vs.map .held)
  into_eq vs := by
    rw [Draft.make, Draft.makeAll_held]
    rfl

instance : IntoValue (Entries.Table String Value) where
  into ms := Value.newObject ms.1
  draft ms := .aggregate (.object (Entries.keys ms.1)) ((Entries.values ms.1).map .held)
  into_eq ms := by
    rw [Draft.make, Draft.makeAll_held]
    simp only [pure_bind, Frame.value, ms.ofList_zip]
    rfl

instance : IntoValue (Entries.Table (MapKey Keyword) Value) where
  into es := Value.newMap es.1
  draft es := .aggregate (.map (Entries.keys es.1)) ((Entries.values es.1).map .held)
  into_eq es := by
    rw [Draft.make, Draft.makeAll_held]
    simp only [pure_bind, Frame.value, es.ofList_zip]
    rfl

/-- What the host leaves out is null. -/
instance {α : Type} [IntoValue α] : IntoValue (Option α) where
  into
    | none => pure .null
    | some a => into a
  draft
    | none => .held .null
    | some a => draft a
  into_eq
    | none => by rw [Draft.make]
    | some a => into_eq a

end IntoValue

variable {ε α κ ν : Type}

/-- Converts one after the other. -/
def intoAll [IntoValue α] : List α → Act ε (List Value)
  | [] => pure []
  | a :: rest => do
    let v ← IntoValue.into a
    return v :: (← intoAll rest)

/-! ### Maps of the host -/

namespace HostMap

def keys [IntoValue κ] (es : List (κ × ν)) : Act ε (List Value) := intoAll (Entries.keys es)

/-- In the order of `keys`. -/
def values [IntoValue ν] (es : List (κ × ν)) : Act ε (List Value) := intoAll (Entries.values es)

end HostMap

/-! ### Records from pairs -/

section Records

variable [DecidableEq κ] [IntoValue ν]

/-- Converts the values one after the other and inserts each under what `key` makes of its key. -/
def insertEach (key : String → κ) (es : List (κ × Value)) :
    List (String × ν) → Act ε (List (κ × Value))
  | [] => pure es
  | (k, a) :: rest => do
    let v ← IntoValue.into a
    insertEach key (Entries.insert (key k) v es) rest

/-- The members of an object that is made from pairs. -/
def objectFrom (pairs : List (String × ν)) : Act ε (List (String × Value)) :=
  insertEach id [] pairs

/-- The entries of a map that is made from pairs, whose keys become strings. -/
def mapFrom (pairs : List (String × ν)) : Act ε (List (MapKey Keyword × Value)) :=
  insertEach .str [] pairs

end Records

end ObjectModel
