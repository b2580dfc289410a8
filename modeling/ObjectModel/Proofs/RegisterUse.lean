import Mathlib
import ObjectModel.Script.Session

/-!
Which registers a command reads and writes. A command does the same with registers that agree on
what it reads, and changes nothing but the one that it writes. Main statements:
`Script.Command.run_eq` and `Script.Command.outcome_congr`; so it does not matter in which order
registers were first written (`Script.Session.run_congr`).
-/

namespace ObjectModel.Script

variable {regs regs' : Registers} {xs ys : List String} {p : Process} {depth : Nat}

/-! ### Registers that are read -/

namespace Expr

mutual

def reads : Expr → List String
  | .list items => itemReads items
  | .object members => memberReads members
  | .map entries => entryReads entries
  | .function _ code => codeReads code
  | .register name => [name]
  | _ => []

def itemReads : List Expr → List String
  | [] => []
  | e :: rest => reads e ++ itemReads rest

def memberReads : List (String × Expr) → List String
  | [] => []
  | (_, e) :: rest => reads e ++ memberReads rest

def entryReads : List (Expr × Expr) → List String
  | [] => []
  | (k, e) :: rest => reads k ++ (reads e ++ entryReads rest)

def codeReads : Code KeyExpr Expr → List String
  | .const e => reads e
  | _ => []

end

end Expr

def Make.reads : Make → List String
  | expr e | receiver e | item e _ | own e _ | entries e | keys e | values e | wrap _ _ e
  | copy e | member e _ => e.reads
  | call fn args => fn.reads ++ Expr.itemReads args
  | bind fn target => fn.reads ++ target.reads
  | nilMember _ | host _ => []

def Observe.reads : Observe → List String
  | equal a b | equalItems a b => a.reads ++ b.reads
  | display e | debug e | pretty e | inspect e | object e _ | iterate e _ | record e | mapKey e
  | hostKey _ e => e.reads
  | _ => []

namespace Command

def reads : Command → List String
  | make m _ _ => m.reads
  | observe o => o.reads

/-- The register that the command may write. -/
def into : Command → Option String
  | make _ into _ => into
  | observe _ => none

end Command

/-! ### Evaluation looks at nothing else -/

/-- Both hold the same under these names. -/
def AgreeOn (xs : List String) (regs regs' : Registers) : Prop :=
  ∀ x ∈ xs, Entries.get? x regs = Entries.get? x regs'

lemma AgreeOn.left (h : AgreeOn (xs ++ ys) regs regs') : AgreeOn xs regs regs' :=
  fun x hx => h x (List.mem_append_left _ hx)

lemma AgreeOn.right (h : AgreeOn (xs ++ ys) regs regs') : AgreeOn ys regs regs' :=
  fun x hx => h x (List.mem_append_right _ hx)

mutual

theorem eval_congr : ∀ e : Expr, AgreeOn e.reads regs regs' → e.eval regs = e.eval regs'
  | .nil, _ | .null, _ | .bool _, _ | .int _, _ | .float _, _ | .str _, _ | .repeated _ _, _
  | .keyword _, _ => rfl
  | .list items, h => by simp only [Expr.eval, items_congr items h]
  | .object members, h => by simp only [Expr.eval, members_congr members h]
  | .map entries, h => by simp only [Expr.eval, entries_congr entries h]
  | .function _ code, h => by simp only [Expr.eval, code_congr code h]
  | .register name, h => by simp only [Expr.eval, h name (List.mem_singleton_self name)]

theorem items_congr : ∀ es : List Expr, AgreeOn (Expr.itemReads es) regs regs' →
    Expr.evalItems regs es = Expr.evalItems regs' es
  | [], _ => rfl
  | e :: es, h => by simp only [Expr.evalItems, eval_congr e h.left, items_congr es h.right]

theorem members_congr : ∀ es : List (String × Expr),
    AgreeOn (Expr.memberReads es) regs regs' → Expr.evalMembers regs es = Expr.evalMembers regs' es
  | [], _ => rfl
  | (_, e) :: es, h => by
    simp only [Expr.evalMembers, eval_congr e h.left, members_congr es h.right]

theorem entries_congr : ∀ es : List (Expr × Expr),
    AgreeOn (Expr.entryReads es) regs regs' → Expr.evalEntries regs es = Expr.evalEntries regs' es
  | [], _ => rfl
  | (k, e) :: es, h => by
    simp only [Expr.evalEntries, eval_congr k h.left, eval_congr e h.right.left,
      entries_congr es h.right.right]

theorem code_congr : ∀ code : Code KeyExpr Expr,
    AgreeOn (Expr.codeReads code) regs regs' → Expr.evalCode regs code = Expr.evalCode regs' code
  | .const e, h => by simp only [Expr.evalCode, eval_congr e h]
  | .this, _ | .args, _ | .sum, _ | .fail _, _ | .path _, _ | .pathArg _, _ | .send _, _
  | .apply, _ => rfl

end

lemma make_congr (depth : Nat) (m : Make) (h : AgreeOn m.reads regs regs') :
    m.run depth regs = m.run depth regs' := by
  cases m with
  | expr e | receiver e | item e | own e | entries e | keys e | values e | wrap _ _ e | copy e
  | member e => simp only [Make.run, eval_congr e h]
  | call fn args => simp only [Make.run, eval_congr fn h.left, items_congr args h.right]
  | bind fn target => simp only [Make.run, eval_congr fn h.left, eval_congr target h.right]
  | nilMember | host => rfl

lemma observe_congr (o : Observe) (h : AgreeOn o.reads regs regs') : o.run regs = o.run regs' := by
  cases o with
  | equal a b | equalItems a b =>
    simp only [Observe.run, eval_congr a h.left, eval_congr b h.right]
  | display e | debug e | pretty e | inspect e | object e | iterate e | record e | mapKey e
  | hostKey _ e => simp only [Observe.run, eval_congr e h]
  | _ => rfl

/-! ### Commands without the register that they write -/

/-- What a command answers, the value that it has for its register, and the process after it. -/
structure Outcome where
  answer : Answer
  value : Option Value
  process : Process

namespace Command

def outcome (depth : Nat) (regs : Registers) (p : Process) : Command → Outcome
  | make m _ quiet =>
    match m.run depth regs p with
    | .ok (some v) q => ⟨.ofValue q.registry quiet v, some v, q⟩
    | .ok none q => ⟨.missing, none, q⟩
    | .error f q => ⟨.fault f, none, q⟩
  | observe o =>
    match o.run regs p with
    | .ok a q => ⟨a, none, q⟩
    | .error f q => ⟨.fault f, none, q⟩

lemma outcome_congr (c : Command) (h : AgreeOn c.reads regs regs') :
    c.outcome depth regs p = c.outcome depth regs' p := by
  cases c with
  | make m => simp only [outcome, make_congr depth m h]
  | observe o => simp only [outcome, observe_congr o h]

end Command

/-- The registers with a value in one of them, if there are both. -/
def Registers.write (into : Option String) (v : Option Value) (regs : Registers) : Registers :=
  match into, v with
  | some x, some v => Entries.insert x v regs
  | _, _ => regs

/-- A command does no more to a session than to write its outcome. -/
lemma Command.run_eq (depth : Nat) (p : Process) (regs : Registers) (c : Command) :
    c.run depth ⟨p, regs⟩ = ((c.outcome depth regs p).answer, ⟨(c.outcome depth regs p).process,
      regs.write c.into (c.outcome depth regs p).value⟩) := by
  cases c with
  | make m into quiet =>
    simp only [run, outcome]
    cases m.run depth regs p with
    | error => cases into <;> rfl
    | ok o =>
      cases o with
      | none => cases into <;> rfl
      | some => cases into <;> rfl
  | observe o =>
    simp only [run, outcome]
    cases o.run regs p <;> rfl

/-! ### Registers by name -/

lemma get?_write (x : String) (into : Option String) (v : Option Value) (regs : Registers) :
    Entries.get? x (Registers.write into v regs) =
      if into = some x ∧ v.isSome then v else Entries.get? x regs := by
  cases into with
  | none => simp [Registers.write]
  | some y =>
    cases v with
    | none => simp [Registers.write]
    | some v => simp [Registers.write, Entries.get?_insert]

/-- Both hold the same under every name. -/
def Registers.Same (regs regs' : Registers) : Prop :=
  ∀ x, Entries.get? x regs = Entries.get? x regs'

lemma Registers.Same.write (h : Registers.Same regs regs') (into : Option String)
    (v : Option Value) : Registers.Same (Registers.write into v regs)
      (Registers.write into v regs') := by
  intro x
  rw [get?_write, get?_write, h x]

/-- The answers do not depend on the order in which registers stand. -/
lemma Session.run_congr (h : Registers.Same regs regs') (cs : List Command) :
    ((⟨p, regs⟩ : Session).run depth cs).1 = ((⟨p, regs'⟩ : Session).run depth cs).1 := by
  induction cs generalizing p regs regs' with
  | nil => rfl
  | cons c cs ih =>
    have hc : c.outcome depth regs p = c.outcome depth regs' p :=
      c.outcome_congr fun x _ => h x
    simp only [Session.run_cons, Command.run_eq, hc]
    rw [ih (h.write _ _)]

end ObjectModel.Script
