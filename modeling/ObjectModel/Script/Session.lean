import ObjectModel.Script.Observe

/-!
Running scripts: a session holds a process and the registers of a script, and every command gives
an answer and the session after it. A command that faults sets no register.
-/

namespace ObjectModel.Script

inductive Command where
  /-- Makes a value and may keep it; a quiet command answers with its kind alone. -/
  | make (m : Make) (into : Option String) (quiet : Bool)
  | observe (o : Observe)

structure Session where
  process : Process
  registers : Registers

instance : Inhabited Session := ⟨⟨.initial, []⟩⟩

namespace Session

def initial : Session := ⟨.initial, []⟩

/-- The session with a value in a register, if one is named. -/
def keep (s : Session) (into : Option String) (v : Value) : Session :=
  match into with
  | some name => { s with registers := Entries.insert name v s.registers }
  | none => s

end Session

/-- The answer that shows a value. -/
def Answer.ofValue (registry : Registry) (quiet : Bool) (v : Value) : Answer :=
  if quiet then .kind v.kind else .made (v.shape registry.nameOf)

/-- One command, with calls at most `depth` deep. -/
def Command.run (depth : Nat) (s : Session) : Command → Answer × Session
  | make m into quiet =>
    match m.run depth s.registers s.process with
    | .ok (some v) p => (.ofValue p.registry quiet v, { s with process := p }.keep into v)
    | .ok none p => (.missing, { s with process := p })
    | .error f p => (.fault f, { s with process := p })
  | observe o =>
    match o.run s.registers s.process with
    | .ok a p => (a, { s with process := p })
    | .error f p => (.fault f, { s with process := p })

/-- An answer, and how many names are registered when it is given. -/
structure Reply where
  answer : Answer
  registered : Nat

namespace Session

/-- The replies to commands, and the session after them. -/
def run (depth : Nat) (s : Session) : List Command → List Reply × Session
  | [] => ([], s)
  | c :: rest =>
    let (a, s) := c.run depth s
    let (replies, last) := run depth s rest
    (⟨a, s.process.registry.size⟩ :: replies, last)

@[simp] theorem run_nil (depth : Nat) (s : Session) : s.run depth [] = ([], s) := rfl
theorem run_cons (depth : Nat) (s : Session) (c : Command) (rest : List Command) :
    s.run depth (c :: rest) =
      (⟨(c.run depth s).1, (c.run depth s).2.process.registry.size⟩ ::
        ((c.run depth s).2.run depth rest).1, ((c.run depth s).2.run depth rest).2) := rfl

theorem run_append (depth : Nat) (s : Session) (cs ds : List Command) :
    s.run depth (cs ++ ds) =
      ((s.run depth cs).1 ++ ((s.run depth cs).2.run depth ds).1,
        ((s.run depth cs).2.run depth ds).2) := by
  induction cs generalizing s with
  | nil => rfl
  | cons c rest ih => simp only [List.cons_append, run_cons, ih]

end Session

end ObjectModel.Script
