import ObjectModel.Entries
import ObjectModel.Keyword
import ObjectModel.Member.Key
import ObjectModel.Number.Binary64

/-!
Values and their kinds.

Lists, objects, maps and bound functions carry an identity, a number drawn when they are made;
copies of a value carry the same one. Values are finite trees: what a function captures and what
it is bound to are parts of it.
-/

namespace ObjectModel

abbrev Ident := Nat

/-- What a map can be keyed by, over a type of keywords. -/
inductive MapKey (κ : Type) where
  | str (s : String)
  | int (n : Int64)
  | bool (b : Bool)
  | keyword (k : κ)
deriving DecidableEq

/-- The functions that records answer with. -/
inductive Builtin where
  | keys
  | values
  | entries
  | get
  | has
deriving DecidableEq

def Builtin.name : Builtin → String
  | keys => "keys"
  | values => "values"
  | entries => "entries"
  | get => "get"
  | has => "has"

/-- What a native function does, over a type of member keys and one of values. -/
inductive Code (κ ν : Type) where
  | this
  /-- The arguments as a new list. -/
  | args
  /-- The sum of the arguments that are whole numbers. -/
  | sum
  | const (v : ν)
  | fail (key : κ)
  /-- Reads the keys one after the other, starting from the receiver. -/
  | path (keys : List κ)
  /-- The same from the first argument. -/
  | pathArg (keys : List κ)
  /-- Reads a member of the receiver and passes the arguments on to it. -/
  | send (key : κ)
  /-- Calls the first argument with the others. -/
  | apply

inductive Body (ν : Type) where
  | builtin (b : Builtin)
  | native (id : Ident) (code : Code MemberKey ν)

/-- A body with the receiver it is bound to, if it is bound, and the identity of that binding. -/
structure Callable (ν : Type) where
  name : String
  body : Body ν
  receiver : Option (Ident × ν)

inductive Value where
  /-- Absence, as the language knows it. -/
  | nil
  /-- Absence as the host reports it; reading a member never gives it. -/
  | null
  | bool (b : Bool)
  | int (n : Int64)
  | float (x : Binary64)
  | str (s : String)
  | keyword (k : Keyword)
  | list (id : Ident) (items : List Value)
  | object (id : Ident) (members : List (String × Value))
  | map (id : Ident) (entries : List (MapKey Keyword × Value))
  | function (f : Callable Value)

instance : Inhabited Value := ⟨.nil⟩

abbrev Function := Callable Value

inductive Kind where
  | nil
  | null
  | bool
  | int
  | float
  | str
  | keyword
  | list
  | object
  | map
  | function
deriving DecidableEq

def Kind.name : Kind → String
  | nil => "Nil"
  | null => "Null"
  | bool => "Bool"
  | int => "Int"
  | float => "Float"
  | str => "Str"
  | keyword => "Keyword"
  | list => "List"
  | object => "Object"
  | map => "Map"
  | function => "Function"

namespace Value

def kind : Value → Kind
  | nil => .nil
  | null => .null
  | bool _ => .bool
  | int _ => .int
  | float _ => .float
  | str _ => .str
  | keyword _ => .keyword
  | list _ _ => .list
  | object _ _ => .object
  | map _ _ => .map
  | function _ => .function

def isNil : Value → Bool
  | nil => true
  | _ => false

/-- Either kind of absence. -/
def isAbsent : Value → Bool
  | nil | null => true
  | _ => false

def isCallable : Value → Bool
  | function _ => true
  | _ => false

def str? : Value → Option String
  | str s => some s
  | _ => none

def int? : Value → Option Int64
  | int n => some n
  | _ => none

def keyword? : Value → Option Keyword
  | keyword k => some k
  | _ => none

def items? : Value → Option (List Value)
  | list _ items => some items
  | _ => none

def members? : Value → Option (List (String × Value))
  | object _ members => some members
  | _ => none

def entries? : Value → Option (List (MapKey Keyword × Value))
  | map _ entries => some entries
  | _ => none

def function? : Value → Option Function
  | function f => some f
  | _ => none

/-- The value as a key of a map, if it can be one. -/
def mapKey? : Value → Option (MapKey Keyword)
  | str s => some (.str s)
  | int n => some (.int n)
  | bool b => some (.bool b)
  | keyword k => some (.keyword k)
  | _ => none

end Value

namespace MapKey

def toValue : MapKey Keyword → Value
  | .str s => .str s
  | .int n => .int n
  | .bool b => .bool b
  | .keyword k => .keyword k

def map {κ κ' : Type} (f : κ → κ') : MapKey κ → MapKey κ'
  | .str s => .str s
  | .int n => .int n
  | .bool b => .bool b
  | .keyword k => .keyword (f k)

theorem mapKey?_toValue (k : MapKey Keyword) : k.toValue.mapKey? = some k := by cases k <;> rfl

end MapKey

def Callable.isBound {ν : Type} (f : Callable ν) : Bool := f.receiver.isSome

def Callable.receiver? {ν : Type} (f : Callable ν) : Option ν := f.receiver.map Prod.snd

/-- The function of a builtin as records hold it, bound to nothing. -/
def Builtin.function (b : Builtin) : Function := ⟨b.name, .builtin b, none⟩

end ObjectModel
