import Mathlib
import ObjectModel.Proofs.Enumeration

/-!
Passes over objects, any number of them at a time. A pass gives the members of its object in their
order and then nothing more, however its calls are mixed with those of other passes and with
whatever else a program does; and nothing else that the program does can tell that there are
passes. Main statement: `Script.Tour.passes_apart`.
-/

namespace ObjectModel

/-! ### A pass by itself -/

namespace Cursor

/-- What is left of the members by both bounds; it is known only if the two are one number. -/
def len? (c : Cursor) : Option Nat :=
  match c.sizeHint with
  | (low, high) => if high = some low then some low else none

lemma len?_eq (c : Cursor) : c.len? = some c.left := if_pos rfl

/-- What `k` calls give: the members in their order, then nothing, each with what is left. -/
def sights (members : List (String × Value)) (k : Nat) : List (Option (String × Value) × Nat) :=
  (List.range k).map fun i => (members[i]?, members.length - min (i + 1) members.length)

lemma steps_start (members : List (String × Value)) (k : Nat) :
    (start members).steps k = (sights members k, ⟨members.drop k⟩) := by
  have hm (i : Nat) : members.length - min i members.length = members.length - i := by omega
  simp only [steps_eq, sights, hm]
  rfl

lemma left_drop (members : List (String × Value)) (k : Nat) :
    (⟨members.drop k⟩ : Cursor).left = members.length - min k members.length := by
  rw [left, List.length_drop]
  omega

end Cursor

namespace Script

/-- The command that makes a pass answers what the calls give, and the keys of a second pass. -/
lemma Observe.run_iterate {regs : Registers} {register : String} {id : Ident}
    {members : List (String × Value)} (k : Nat) (p : Process)
    (ho : Entries.get? register regs = some (.object id members)) :
    (Observe.iterate (.register register) k).run regs p =
      .ok (.iteration (takenShapes p.registry.nameOf (Cursor.sights members k))
        (members.length - min k members.length, some (members.length - min k members.length))
        (Entries.keys members)) p := by
  have he : (Expr.register register).eval regs p = .ok (.object id members) p := by
    simp only [Expr.eval, ho]
    rfl
  simp only [Observe.run, Act.bind_apply, he, membersOf, Act.pure_apply, Cursor.steps_start,
    Cursor.sizeHint, Cursor.left_drop, Act.registry_apply]

/-! ### Passes in a session -/

/-- What a program does next. -/
inductive Move where
  | command (c : Command)
  /-- Starts a pass over the object in a register, in the place of any other of that name. -/
  | start (pass register : String)
  /-- Calls a pass. -/
  | next (pass : String)

/-- What comes of it. -/
inductive Response where
  | reply (r : Reply)
  /-- The member that a pass gives, if it gives one, and how many it has left. -/
  | taken (pass : String) (member : Option (String × Value)) (left : Nat)
  | silent

namespace Move

def command? : Move → Option Command
  | command c => some c
  | _ => none

def starts (pass : String) : Move → Bool
  | start name _ => name = pass
  | _ => false

def calls (pass : String) : Move → Bool
  | next name => name = pass
  | _ => false

end Move

namespace Response

def reply? : Response → Option Reply
  | reply r => some r
  | _ => none

/-- What this pass has given. -/
def taken? (pass : String) : Response → Option (Option (String × Value) × Nat)
  | taken name member left => if name = pass then some (member, left) else none
  | _ => none

end Response

/-- A session with the passes that are under way in it. -/
structure Tour where
  session : Session
  passes : List (String × Cursor)

namespace Tour

/-- One move. Without an object to start over, or a pass to call, nothing happens. -/
def move (depth : Nat) (t : Tour) : Move → Response × Tour
  | .command c =>
    let (a, s) := c.run depth t.session
    (.reply ⟨a, s.process.registry.size⟩, { t with session := s })
  | .start pass register =>
    match (Entries.get? register t.session.registers).bind Value.members? with
    | some members =>
      (.silent, { t with passes := Entries.insert pass (Cursor.start members) t.passes })
    | none => (.silent, t)
  | .next pass =>
    match Entries.get? pass t.passes with
    | some c =>
      let (member, c) := c.next
      (.taken pass member c.left, { t with passes := Entries.insert pass c t.passes })
    | none => (.silent, t)

/-- The responses to moves, and the tour after them. -/
def run (depth : Nat) (t : Tour) : List Move → List Response × Tour
  | [] => ([], t)
  | m :: rest =>
    let (r, t) := t.move depth m
    let (responses, last) := run depth t rest
    (r :: responses, last)

variable {t : Tour} {m : Move} {ms : List Move} {pass register : String}

lemma run_cons (depth : Nat) (t : Tour) (m : Move) (ms : List Move) : t.run depth (m :: ms) =
    ((t.move depth m).1 :: ((t.move depth m).2.run depth ms).1,
      ((t.move depth m).2.run depth ms).2) := rfl

/-! ### What the session sees of the passes -/

lemma move_of_command?_eq_none (depth : Nat) (t : Tour) (h : m.command? = none) :
    (t.move depth m).1.reply? = none ∧ (t.move depth m).2.session = t.session := by
  cases m with
  | command c => cases h
  | start pass register =>
    simp only [move]
    split <;> exact ⟨rfl, rfl⟩
  | next pass =>
    simp only [move]
    split <;> exact ⟨rfl, rfl⟩

/-- The session is that of the commands alone, and so are its replies. -/
lemma run_session (depth : Nat) (t : Tour) (ms : List Move) :
    ((t.run depth ms).1.filterMap Response.reply?, (t.run depth ms).2.session) =
      t.session.run depth (ms.filterMap Move.command?) := by
  induction ms generalizing t with
  | nil => rfl
  | cons m ms ih =>
    obtain ⟨ihr, ihs⟩ := Prod.ext_iff.1 (ih (t.move depth m).2)
    cases hc : m.command? with
    | none =>
      obtain ⟨hr, hs⟩ := move_of_command?_eq_none depth t hc
      rw [hs] at ihr ihs
      rw [run_cons, List.filterMap_cons_none hr, List.filterMap_cons_none hc]
      exact Prod.ext ihr ihs
    | some c =>
      obtain rfl : m = .command c := by
        cases m <;> cases hc
        rfl
      exact Prod.ext (congrArg (List.cons _) ihr) ihs

/-! ### What a pass sees of the rest -/

/-- A pass under way is moved on by its own calls and by nothing else. -/
lemma move_pass (depth : Nat) (hm : m.starts pass = false) {c : Cursor}
    (hc : Entries.get? pass t.passes = some c) :
    (t.move depth m).1.taken? pass =
        (if m.calls pass then some (c.next.1, c.next.2.left) else none) ∧
      Entries.get? pass (t.move depth m).2.passes = some (if m.calls pass then c.next.2 else c) := by
  cases m with
  | command c => exact ⟨rfl, hc⟩
  | start name register =>
    -- It is another pass that is started, if there is an object to start it over.
    have hn : name ≠ pass := by simpa [Move.starts] using hm
    simp only [move]
    split
    · refine ⟨rfl, ?_⟩
      rw [Entries.get?_insert, if_neg hn, hc]
      rfl
    · exact ⟨rfl, hc⟩
  | next name =>
    by_cases hn : name = pass
    · subst hn
      simp [move, hc, Move.calls, Response.taken?, Entries.get?_insert]
    · simp only [move, Move.calls, hn]
      split <;> simp [Response.taken?, Entries.get?_insert, hn, hc]

/-- So among all the rest it gives what it gives alone. -/
lemma run_pass (depth : Nat) (hs : ∀ m ∈ ms, m.starts pass = false) {c : Cursor}
    (hc : Entries.get? pass t.passes = some c) :
    (t.run depth ms).1.filterMap (Response.taken? pass) =
        (c.steps (ms.countP (Move.calls pass))).1 ∧
      Entries.get? pass (t.run depth ms).2.passes =
        some (c.steps (ms.countP (Move.calls pass))).2 := by
  induction ms generalizing t c with
  | nil => exact ⟨rfl, hc⟩
  | cons m ms ih =>
    obtain ⟨hm, hs⟩ := List.forall_mem_cons.1 hs
    obtain ⟨hr, hn⟩ := move_pass depth hm hc
    obtain ⟨ihr, ihp⟩ := ih hs hn
    rw [run_cons]
    by_cases hcall : m.calls pass
    · rw [if_pos hcall] at hr hn ihr ihp
      rw [List.countP_cons_of_pos hcall, Cursor.steps_succ, List.filterMap_cons_some hr]
      exact ⟨congrArg _ ihr, ihp⟩
    · rw [if_neg hcall] at hr hn ihr ihp
      rw [List.countP_cons_of_neg hcall, List.filterMap_cons_none hr]
      exact ⟨ihr, ihp⟩

lemma get?_start (depth : Nat) (pass : String) {id : Ident} {members : List (String × Value)}
    (ho : Entries.get? register t.session.registers = some (.object id members)) :
    Entries.get? pass (t.move depth (.start pass register)).2.passes =
      some (Cursor.start members) := by
  simp only [move, ho, Option.bind_some, Value.members?, Entries.get?_insert, if_pos]

/-- **Passes keep apart.** Whenever a pass is started over an object, and whatever is done then,
calls of other passes and new ones included, its own calls give the members one after the other and
then nothing, each with what is left after it. After `j` of them it stands before the next member,
and its length is what is left, by both bounds. The command that makes a pass of its own gives the
same. The session and its replies, and with them the object, are what they would be without the
passes. -/
theorem passes_apart (depth : Nat) (t : Tour) (pass register : String) (ms : List Move)
    {id : Ident} {members : List (String × Value)}
    (ho : Entries.get? register t.session.registers = some (.object id members))
    (hs : ∀ m ∈ ms, m.starts pass = false) :
    let u := (t.move depth (.start pass register)).2.run depth ms
    let n := members.length
    let j := ms.countP (Move.calls pass)
    u.1.filterMap (Response.taken? pass) =
      (List.range j).map (fun i => (members[i]?, n - min (i + 1) n)) ∧
    (∃ c, Entries.get? pass u.2.passes = some c ∧ c.next.1 = members[j]? ∧
      c.len? = some (n - min j n) ∧ c.sizeHint = (n - min j n, some (n - min j n))) ∧
    (∀ k p, (Observe.iterate (.register register) k).run t.session.registers p =
      .ok (.iteration (takenShapes p.registry.nameOf (Cursor.sights members k))
        (n - min k n, some (n - min k n)) (Entries.keys members)) p) ∧
    (u.1.filterMap Response.reply?, u.2.session) =
      t.session.run depth (ms.filterMap Move.command?) := by
  intro u n j
  obtain ⟨hr, hp⟩ := run_pass depth hs (get?_start depth pass ho)
  rw [Cursor.steps_start] at hr hp
  have hl : (⟨members.drop j⟩ : Cursor).left = n - min j n := Cursor.left_drop members j
  refine ⟨hr, ⟨_, hp, ?_, ?_, ?_⟩, fun k p => Observe.run_iterate k p ho, ?_⟩
  · rw [Cursor.next_fst]
    exact List.head?_drop
  · rw [Cursor.len?_eq, hl]
  · rw [Cursor.sizeHint, hl]
  · have hu := run_session depth (t.move depth (.start pass register)).2 ms
    rwa [(move_of_command?_eq_none depth t rfl).2] at hu

/-- Two passes in turns, and a register that is given another value meanwhile. -/
theorem passes_apart_in_turns :
    let members : List (String × Value) := [("x", .int 1), ("y", .int 2)]
    let t : Tour := ⟨(Session.initial.run 1
      [.make (.expr (.object [("x", .int 1), ("y", .int 2)])) (some "o") true]).2, []⟩
    let ms : List Move := [.next "a", .start "b" "o", .next "b",
      .command (.make (.expr .nil) (some "o") true), .next "a", .next "b", .next "a", .next "b"]
    Entries.get? "o" t.session.registers = some (.object 0 members) ∧
    (∀ m ∈ ms, m.starts "a" = false) ∧
    ((t.move 1 (.start "a" "o")).2.run 1 ms).1.filterMap (Response.taken? "a") =
      [(some ("x", .int 1), 1), (some ("y", .int 2), 0), (none, 0)] := by
  intro members t ms
  have ho : Entries.get? "o" t.session.registers = some (.object 0 members) := rfl
  have hs : ∀ m ∈ ms, m.starts "a" = false := by decide
  exact ⟨ho, hs, (passes_apart 1 t "a" "o" ms ho hs).1⟩

end Tour

end Script

end ObjectModel
