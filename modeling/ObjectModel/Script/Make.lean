import ObjectModel.Host
import ObjectModel.Script.Expr

/-!
The commands that make a value.
-/

namespace ObjectModel.Script

/-- What a value is wrapped in: aggregates with nothing else in them. -/
inductive Wrapper where
  | list
  | object (key : String)
  | map (key : String)

inductive Make where
  | expr (e : Expr)
  | member (base : Expr) (key : KeyExpr)
  | nilMember (key : KeyExpr)
  | call (fn : Expr) (args : List Expr)
  | bind (fn : Expr) (target : Expr)
  | receiver (fn : Expr)
  | item (list : Expr) (index : Nat)
  /-- A member as it is stored. -/
  | own (object : Expr) (name : String)
  | entries (object : Expr)
  | keys (record : Expr)
  | values (record : Expr)
  | wrap (w : Wrapper) (times : Nat) (e : Expr)
  | host (h : Host String)
  /-- An object with the same members and an identity of its own. -/
  | copy (object : Expr)

variable {ε : Type}

namespace Wrapper

def once : Wrapper → Value → Act ε Value
  | list, v => Value.newList [v]
  | object key, v => Value.newObject [(key, v)]
  | map key, v => Value.newMap [(.str key, v)]

def times (w : Wrapper) : Nat → Value → Act ε Value
  | 0, v => pure v
  | n + 1, v => do times w n (← w.once v)

end Wrapper

def functionOf (v : Value) : Act Fault Function :=
  match v with
  | .function f => pure f
  | v => throw (.notCallable v.kind)

def membersOf (v : Value) : Act Fault (List (String × Value)) :=
  match v with
  | .object _ members => pure members
  | v => throw (.notObject v.kind)

/-- A new list of what is there. -/
def newListOf : Option (List Value) → Act ε (Option Value)
  | some items => return some (← Value.newList items)
  | none => pure none

namespace Make

/-- The value made, if there is one. Calls go at most `depth` deep. -/
def run (depth : Nat) (regs : Registers) : Make → Act Fault (Option Value)
  | expr e => return some (← e.eval regs)
  | member base key => do
    let v ← base.eval regs
    let key ← key.eval
    return some (← (v.member key).mapError .lookup)
  | nilMember key => do
    let key ← key.eval
    return some (← (ObjectModel.nilMember key).mapError .lookup)
  | call fn args => do
    let f ← functionOf (← fn.eval regs)
    let args ← Expr.evalItems regs args
    return some (← (f.call depth args).mapError Fault.ofCall)
  | bind fn target => do
    let f ← functionOf (← fn.eval regs)
    let receiver ← target.eval regs
    return some (.function (← f.bind receiver))
  | receiver fn => return (← functionOf (← fn.eval regs)).receiver?
  | item list index => return (← list.eval regs).items?.bind fun items => items[index]?
  | own object name => return Entries.get? name (← membersOf (← object.eval regs))
  | entries object => return some (← Value.newEntries (← membersOf (← object.eval regs)))
  | keys record => do newListOf (← record.eval regs).recordKeys?
  | values record => do newListOf (← record.eval regs).recordValues?
  | wrap w times e => return some (← w.times times (← e.eval regs))
  | host h => return some (← h.intern).toValue
  | copy object => do
    match (← object.eval regs).members? with
    | some members => return some (← Value.newObject members)
    | none => throw .notCopyable

end Make

end ObjectModel.Script
