import ObjectModel.Call
import ObjectModel.Settings.Basic

/-!
Expressions of scripts, and how they are evaluated: from left to right and inside out, up to the
first fault. What was registered before a fault stays registered.
-/

namespace ObjectModel.Script

/-- Why a command of a script has no answer of its own. -/
inductive Fault where
  | lookup (e : LookupError)
  | settings (e : SettingsError)
  | tooDeep
  | unsetRegister (name : String)
  | notCallable (kind : Kind)
  | notObject (kind : Kind)
  /-- Only an object can be copied. -/
  | notCopyable
  | notRecord (kind : Kind)
  | unhashable (kind : Kind)
deriving DecidableEq

def Fault.ofCall : CallError → Fault
  | .lookup e => .lookup e
  | .tooDeep => .tooDeep

inductive KeyExpr where
  | name (s : String)
  /-- The name of a keyword, which is registered. -/
  | keyword (name : String)
  | capability (c : Capability)

inductive Expr where
  | nil
  | null
  | bool (b : Bool)
  | int (n : Int64)
  | float (x : Binary64)
  | str (s : String)
  | repeated (s : String) (times : Nat)
  | keyword (name : String)
  | list (items : List Expr)
  | object (members : List (String × Expr))
  | map (entries : List (Expr × Expr))
  | function (name : String) (code : Code KeyExpr Expr)
  | register (name : String)

abbrev Registers := List (String × Value)

namespace KeyExpr

variable {ε : Type}

def eval : KeyExpr → Act ε MemberKey
  | name s => pure (.name s)
  | keyword s => do
    let k ← Act.intern s
    return .name ((← Act.registry).nameOf k)
  | capability c => pure (.capability c)

def evalAll : List KeyExpr → Act ε (List MemberKey)
  | [] => pure []
  | k :: rest => do
    let key ← k.eval
    return key :: (← evalAll rest)

end KeyExpr

/-- The value that the key of a map must be, as a key. -/
def mapKeyOf (v : Value) : Act Fault (MapKey Keyword) :=
  match v.mapKey? with
  | some k => pure k
  | none => throw (.unhashable v.kind)

namespace Expr

mutual

def eval (regs : Registers) : Expr → Act Fault Value
  | .nil => pure .nil
  | .null => pure .null
  | .bool b => pure (.bool b)
  | .int n => pure (.int n)
  | .float x => pure (.float x)
  | .str s => pure (.str s)
  | .repeated s times => pure (.str (String.join (List.replicate times s)))
  | .keyword name => return .keyword (← Act.intern name)
  | .list items => do Value.newList (← evalItems regs items)
  | .object members => do Value.newObject (Entries.ofList (← evalMembers regs members))
  | .map entries => do Value.newMap (Entries.ofList (← evalEntries regs entries))
  | .function name code => do
    let code ← evalCode regs code
    return .function ⟨name, .native (← Act.fresh) code, none⟩
  | .register name =>
    match Entries.get? name regs with
    | some v => pure v
    | none => throw (.unsetRegister name)

def evalItems (regs : Registers) : List Expr → Act Fault (List Value)
  | [] => pure []
  | e :: rest => do
    let v ← eval regs e
    return v :: (← evalItems regs rest)

def evalMembers (regs : Registers) : List (String × Expr) → Act Fault (List (String × Value))
  | [] => pure []
  | (k, e) :: rest => do
    let v ← eval regs e
    return (k, v) :: (← evalMembers regs rest)

def evalEntries (regs : Registers) :
    List (Expr × Expr) → Act Fault (List (MapKey Keyword × Value))
  | [] => pure []
  | (k, e) :: rest => do
    let key ← mapKeyOf (← eval regs k)
    let v ← eval regs e
    return (key, v) :: (← evalEntries regs rest)

/-- What a native function captures is evaluated when the function is made. -/
def evalCode (regs : Registers) : Code KeyExpr Expr → Act Fault (Code MemberKey Value)
  | .this => pure .this
  | .args => pure .args
  | .sum => pure .sum
  | .const e => return .const (← eval regs e)
  | .fail key => return .fail (← key.eval)
  | .path keys => return .path (← KeyExpr.evalAll keys)
  | .pathArg keys => return .pathArg (← KeyExpr.evalAll keys)
  | .send key => return .send (← key.eval)
  | .apply => pure .apply

end

end Expr

end ObjectModel.Script
