import ObjectModel.Member.Access

/-!
Calling functions.

Calls nest without bound, so a call runs to a given depth; running out of it is an answer of its
own and never the answer of a call that would have come back.
-/

namespace ObjectModel

inductive CallError where
  | lookup (e : LookupError)
  /-- The calls nest deeper than was allowed. -/
  | tooDeep
deriving DecidableEq

namespace Builtin

variable {ε : Type}

/-- A list of what is there, nil if there is none. -/
def listOrNil : Option (List Value) → Act ε Value
  | some items => Value.newList items
  | none => pure .nil

/-- The value under the first argument, as it is stored. -/
def fetch? (this : Value) (args : List Value) : Option Value := do
  let es ← this.entries?
  let key ← (← args.head?).mapKey?
  Entries.get? key es

def holds (this : Value) (args : List Value) : Bool :=
  match this.entries?, args.head?.bind Value.mapKey? with
  | some es, some key => Entries.contains key es
  | _, _ => false

def run (b : Builtin) (this : Value) (args : List Value) : Act ε Value :=
  match b with
  | keys => listOrNil this.recordKeys?
  | values => listOrNil this.recordValues?
  | entries =>
    match this.recordPairs? with
    | some pairs => do Value.newList (← Value.newPairs pairs)
    | none => pure .nil
  | get => pure ((fetch? this args).getD .nil)
  | has => pure (.bool (holds this args))

end Builtin

/-- The sum of the whole numbers among values, modulo 2^64. -/
def sumInts : List Value → Int64
  | [] => 0
  | .int n :: rest => n + sumInts rest
  | _ :: rest => sumInts rest

/-- The receiver, or nil for a function that has none. -/
def Callable.this (f : Function) : Value := f.receiver?.getD .nil

/-- Calls a function, with at most `depth` calls inside one another. -/
def Callable.call : Nat → Function → List Value → Act CallError Value
  | 0, _, _ => throw .tooDeep
  | depth + 1, f, args =>
    match f.body with
    | .builtin b => b.run f.this args
    | .native _ code =>
      match code with
      | .this => pure f.this
      | .args => Value.newList args
      | .sum => pure (.int (sumInts args))
      | .const v => pure v
      | .fail key => throw (.lookup ⟨key⟩)
      | .path keys => (f.this.memberPath keys).mapError .lookup
      | .pathArg keys => ((args.headD .nil).memberPath keys).mapError .lookup
      | .send key => do
        match ← (f.this.member key).mapError .lookup with
        | .function g => g.call depth args
        | v => pure v
      | .apply =>
        match args with
        | .function g :: rest => g.call depth rest
        | _ => pure .nil

end ObjectModel
