import ObjectModel.Record

/-!
Reading a member of a value.

What is missing reads as nil, a null as well, and a function comes out bound to the value it was
read from. Only nil itself refuses a member, and only it answers for its type.
-/

namespace ObjectModel

/-- Binding sticks: a bound function stays as it is. -/
def Callable.bind {ε : Type} (f : Function) (receiver : Value) : Act ε Function :=
  match f.receiver with
  | some _ => pure f
  | none => return { f with receiver := some (← Act.fresh, receiver) }

/-- What nil calls itself. -/
def nilTag : String := "Nil"

/-- A member of nil. -/
def nilMember : MemberKey → Act LookupError Value
  | .capability .typeTag => pure (.str nilTag)
  | key => do
    Act.emit (.nilLookup key)
    throw ⟨key⟩

/-- The function behind a capability of records. -/
def Capability.builtin? : Capability → Option Builtin
  | recordKeys => some .keys
  | recordValues => some .values
  | iterator => some .entries
  | typeTag => none

namespace Value

/-- The count as a whole number of the language. -/
def ofCount (n : Nat) : Value := .int (Int64.ofNat n)

def ofBuiltin (b : Builtin) : Value := .function b.function

/-- What a value other than absence holds under a key, as it is stored. -/
def stored? (registry : Registry) : Value → MemberKey → Option Value
  | object _ members, .name s => Entries.get? s members
  | map _ entries, .name s =>
    if s = "size" then some (ofCount entries.length)
    else if s = "get" then some (ofBuiltin .get)
    else if s = "has" then some (ofBuiltin .has)
    else none
  | object _ _, .capability c | map _ _, .capability c => c.builtin?.map ofBuiltin
  | str t, .name s => if s = "length" then some (ofCount t.length) else none
  | list _ items, .name s => if s = "length" then some (ofCount items.length) else none
  | keyword k, .name s => if s = "value" then some (.str (registry.nameOf k)) else none
  | function f, .name s => if s = "name" then some (.str f.name) else none
  | _, _ => none

/-- What a read gives for what is stored. -/
def settle {ε : Type} (receiver : Value) : Option Value → Act ε Value
  | some (function f) => return .function (← f.bind receiver)
  | some null | none => pure nil
  | some v => pure v

/-- Reads a member. -/
def member (v : Value) (key : MemberKey) : Act LookupError Value := do
  if v.isAbsent then nilMember key
  else v.settle (v.stored? (← Act.registry) key)

/-- Reads members one after the other. -/
def memberPath (v : Value) : List MemberKey → Act LookupError Value
  | [] => pure v
  | key :: rest => do (← v.member key).memberPath rest

end Value

end ObjectModel
