/-!
How a member is addressed: by an ordinary name or by a capability.

Capabilities have a space of their own, so that no member of an object can stand in for one, and
identifiers that never change.
-/

namespace ObjectModel

inductive Capability where
  /-- The keys of a record. -/
  | recordKeys
  /-- The values of a record. -/
  | recordValues
  /-- The entries of a record, as pairs. -/
  | iterator
  /-- What a value calls itself; answered by nil alone. -/
  | typeTag
deriving DecidableEq

namespace Capability

def all : List Capability := [recordKeys, recordValues, iterator, typeTag]

def id : Capability → String
  | recordKeys => "std/record/Record:keys"
  | recordValues => "std/record/Record:values"
  | iterator => "std/core:iterator"
  | typeTag => "std/core:type-tag"

def label : Capability → String
  | recordKeys => "RecordKeys"
  | recordValues => "RecordValues"
  | iterator => "Iterator"
  | typeTag => "TypeTag"

def text (c : Capability) : String := "<" ++ c.id ++ ">"

def ofId? (id : String) : Option Capability := all.find? fun c => c.id == id

def ofLabel? (label : String) : Option Capability := all.find? fun c => c.label == label

theorem ofId?_id (c : Capability) : ofId? c.id = some c := by cases c <;> decide

end Capability

inductive MemberKey where
  | name (s : String)
  | capability (c : Capability)
deriving DecidableEq

namespace MemberKey

def text : MemberKey → String
  | .name s => s
  | .capability c => c.text

def name? : MemberKey → Option String
  | .name s => some s
  | .capability _ => none

end MemberKey

/-- Nil was asked for a member that it does not have. -/
structure LookupError where
  member : MemberKey
deriving DecidableEq

def LookupError.message (e : LookupError) : String :=
  "Nil does not have property: " ++ e.member.text

end ObjectModel
