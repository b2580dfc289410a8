import ObjectModel.Log.Event
import ObjectModel.Value.Basic

/-!
What all values of a process share: the supply of identities, the keyword registry, and what has
been reported so far with the subscriber that writes it.

`events` holds every event from the start. What a subscriber writes is read off it (`written`), so
nothing that a program computes can depend on the subscriber.
-/

namespace ObjectModel

structure Subscriber where
  level : Level
  ansi : Bool
  /-- How many events came before it. -/
  since : Nat
deriving DecidableEq

structure Process where
  /-- The next identity; those below it have been given out. -/
  next : Ident
  registry : Registry
  events : List Event
  subscriber : Option Subscriber

namespace Process

def initial : Process := ⟨0, .empty, [], none⟩

instance : Inhabited Process := ⟨initial⟩

def fresh (p : Process) : Ident × Process := (p.next, { p with next := p.next + 1 })

def emit (p : Process) (e : Event) : Process := { p with events := p.events ++ [e] }

/-- The keyword of a name. Registering a new one is reported. -/
def intern (p : Process) (name : String) : Keyword × Process :=
  match p.registry.find? name with
  | some k => (k, p)
  | none =>
    let (k, registry) := p.registry.intern name
    (k, { p with registry }.emit (.interned name))

/-- The first subscriber stays. -/
def subscribe (p : Process) (level : Level) (ansi : Bool) : Process :=
  match p.subscriber with
  | some _ => p.emit .subscriberKept
  | none => { p with subscriber := some ⟨level, ansi, p.events.length⟩ }

/-- The events that the subscriber writes. -/
def written (p : Process) : List Event :=
  match p.subscriber with
  | none => []
  | some s => (p.events.drop s.since).filter fun e => s.level.within e.level

def logText (p : Process) : String :=
  match p.subscriber with
  | none => ""
  | some s => String.join (p.written.map (Event.line s.ansi))

end Process

/-- A computation in a process that may stop with an error; what it did before that stays. -/
abbrev Act (ε α : Type) := EStateM ε Process α

namespace Act

variable {ε ε' α : Type}

def fresh : Act ε Ident := modifyGet Process.fresh

def emit (e : Event) : Act ε Unit := modify fun p => p.emit e

def intern (name : String) : Act ε Keyword := modifyGet fun p => p.intern name

def registry : Act ε Registry := return (← get).registry

/-- The same computation with its errors under another type. -/
def mapError (f : ε → ε') (act : Act ε α) : Act ε' α := act.adaptExcept f

theorem bind_apply {β : Type} (act : Act ε α) (f : α → Act ε β) (p : Process) :
    (act >>= f) p =
      match act p with
      | .ok a p => f a p
      | .error e p => .error e p := by
  change EStateM.bind act f p = _
  unfold EStateM.bind
  cases act p <;> rfl

theorem bind_eq_ok {β : Type} {act : Act ε α} {f : α → Act ε β} {p q : Process} {b : β} :
    (act >>= f) p = .ok b q ↔ ∃ a p', act p = .ok a p' ∧ f a p' = .ok b q := by
  rw [bind_apply]
  cases act p <;> simp [and_assoc]

theorem mapError_apply (f : ε → ε') (act : Act ε α) (p : Process) :
    act.mapError f p =
      match act p with
      | .ok a p => .ok a p
      | .error e p => .error (f e) p := by
  unfold mapError EStateM.adaptExcept
  cases act p <;> rfl

@[simp] theorem fresh_apply (p : Process) :
    (fresh : Act ε Ident) p = .ok p.next { p with next := p.next + 1 } := rfl
@[simp] theorem emit_apply (e : Event) (p : Process) :
    (emit e : Act ε Unit) p = .ok () (p.emit e) := rfl
@[simp] theorem intern_apply (name : String) (p : Process) :
    (intern name : Act ε Keyword) p = .ok (p.intern name).1 (p.intern name).2 := rfl
@[simp] theorem registry_apply (p : Process) :
    (registry : Act ε Registry) p = .ok p.registry p := rfl

end Act

/-! ### Aggregates -/

namespace Value

variable {ε : Type}

def newList (items : List Value) : Act ε Value := return .list (← Act.fresh) items

def newObject (members : List (String × Value)) : Act ε Value :=
  return .object (← Act.fresh) members

def newMap (entries : List (MapKey Keyword × Value)) : Act ε Value :=
  return .map (← Act.fresh) entries

/-- Each pair as a list of two. -/
def newPairs : List (Value × Value) → Act ε (List Value)
  | [] => pure []
  | (a, b) :: rest => do
    let pair ← newList [a, b]
    return pair :: (← newPairs rest)

end Value

end ObjectModel
