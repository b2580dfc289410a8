import Mathlib
import ObjectModel.Proofs.Construction

/-!
How long a binding lasts. A function may be bound over and over, kept in objects and read back from
them; it stays bound to what it was bound to first, and its calls see that and nothing later. Main
statement: `Callable.binding_lasts`.
-/

namespace ObjectModel

open Script

/-! ### Calls by receiver and arguments -/

/-- What a body does with a receiver and arguments. -/
def Body.apply (depth : Nat) (this : Value) (args : List Value) : Body Value → Act CallError Value
  | .builtin b => b.run this args
  | .native _ .this => pure this
  | .native _ .args => Value.newList args
  | .native _ .sum => pure (.int (sumInts args))
  | .native _ (.const v) => pure v
  | .native _ (.fail key) => throw (.lookup ⟨key⟩)
  | .native _ (.path keys) => (this.memberPath keys).mapError .lookup
  | .native _ (.pathArg keys) => ((args.headD .nil).memberPath keys).mapError .lookup
  | .native _ (.send key) => do
    match ← (this.member key).mapError .lookup with
    | .function g => g.call depth args
    | v => pure v
  | .native _ .apply =>
    match args with
    | .function g :: rest => g.call depth rest
    | _ => pure .nil

lemma Callable.call_succ (f : Function) (depth : Nat) (args : List Value) :
    f.call (depth + 1) args = f.body.apply depth f.this args := by
  obtain ⟨name, body, receiver⟩ := f
  cases body with
  | builtin b => rfl
  | native i code => cases code <;> rfl

lemma Callable.call_of_receiver {f : Function} {r : Value} (h : f.receiver? = some r)
    (depth : Nat) (args : List Value) : f.call (depth + 1) args = f.body.apply depth r args := by
  rw [call_succ, this, h, Option.getD_some]

/-! ### What a read makes of what is stored -/

namespace Callable

variable {f : Function} {i : Ident} {r : Value}

/-- Bound to `r`, unless it is bound already. -/
def boundTo (f : Function) (i : Ident) (r : Value) : Function :=
  { f with receiver := f.receiver.or (some (i, r)) }

lemma isBound_boundTo : (f.boundTo i r).isBound := by
  simp [boundTo, isBound]

lemma boundTo_of_isBound (h : f.isBound) : f.boundTo i r = f := by
  obtain ⟨name, body, _ | b⟩ := f
  · cases h
  · rfl

lemma receiver?_boundTo : (f.boundTo i r).receiver? = some (f.receiver?.getD r) := by
  cases h : f.receiver <;> simp [boundTo, receiver?, h]

lemma bind_apply {ε : Type} (f : Function) (r : Value) (p : Process) :
    ∃ q, (f.bind r : Act ε Function) p = .ok (f.boundTo p.next r) q := by
  obtain ⟨name, body, _ | b⟩ := f
  · exact ⟨_, Value.bind_of_unbound rfl r p⟩
  · exact ⟨_, Value.bind_of_bound rfl r p⟩

end Callable

namespace Value

/-- What is stored, as a read from `receiver` gives it; `i` is the identity of a new binding. -/
def asRead (v receiver : Value) (i : Ident) : Value :=
  match v with
  | null => nil
  | function f => function (f.boundTo i receiver)
  | v => v

lemma settle_some (r v : Value) (p : Process) :
    ∃ q, (r.settle (some v) : Act LookupError Value) p = .ok (v.asRead r p.next) q := by
  cases v with
  | function f =>
    obtain ⟨q, hq⟩ := f.bind_apply (ε := LookupError) r p
    exact ⟨q, by rw [settle, Act.bind_apply, hq]; rfl⟩
  | _ => exact ⟨_, rfl⟩

lemma member_object (id : Ident) (members : List (String × Value)) (s : String) (p : Process) :
    ∃ q, (object id members).member (.name s) p =
      .ok (((Entries.get? s members).getD .nil).asRead (object id members) p.next) q := by
  rw [member_of_present rfl, stored?]
  cases Entries.get? s members with
  | none => exact ⟨p, rfl⟩
  | some v => exact settle_some _ v p

end Value

/-! ### One leg of a way -/

/-- What a function may go through. -/
inductive Leg where
  | bind (receiver : Value)
  /-- It is kept in an object made from pairs, the last of its name, and read back by that name. -/
  | keep (name : String) (before after : List (String × Value)) (last : name ∉ Entries.keys after)

namespace Leg

/-- The members of the object that keeps `f`. -/
def members (f : Function) (name : String) (before after : List (String × Value)) :
    List (String × Value) :=
  Entries.ofList (before ++ (name, .function f) :: after)

def run (f : Function) : Leg → Act Fault Function
  | bind receiver => f.bind receiver
  | keep name before after _ => do
    let object ← Value.newObject (members f name before after)
    functionOf (← (object.member (.name name)).mapError .lookup)

/-- What the leg binds `f` to if nothing did before: the value given, or the new object. -/
def target (f : Function) (p : Process) : Leg → Value
  | bind receiver => receiver
  | keep name before after _ => .object p.next (members f name before after)

/-- Whichever leg it is, it binds and does nothing else. -/
lemma run_eq (leg : Leg) (f : Function) (p : Process) :
    ∃ i q, leg.run f p = .ok (f.boundTo i (leg.target f p)) q := by
  cases leg with
  | bind receiver => exact ⟨_, f.bind_apply receiver p⟩
  | keep name before after last =>
    have hn : (Value.newObject (members f name before after) : Act Fault Value) p =
        .ok (.object p.next (members f name before after)) p.fresh.2 := rfl
    have hs : Entries.get? name (members f name before after) = some (.function f) :=
      Entries.get?_ofList_last before last
    obtain ⟨q, hq⟩ := Value.member_object p.next (members f name before after) name p.fresh.2
    rw [hs] at hq
    refine ⟨p.fresh.2.next, q, ?_⟩
    rw [run, Act.bind_apply, hn]
    simp only [Act.bind_apply, Act.mapError_apply, hq]
    rfl

end Leg

/-! ### The whole way -/

namespace Callable

/-- What `f` is after each leg. What the process does between two legs is left open: each comes with
the process that it finds. -/
def travel : Function → List (Leg × Process) → Option (List Function)
  | _, [] => some []
  | f, (leg, p) :: legs => do
    let g ← (leg.run f).run' p
    return g :: (← g.travel legs)

variable {f : Function}

lemma travel_cons (f : Function) (leg : Leg) (p : Process) (legs : List (Leg × Process)) :
    ∃ i, f.travel ((leg, p) :: legs) =
      ((f.boundTo i (leg.target f p)).travel legs).map (f.boundTo i (leg.target f p) :: ·) := by
  obtain ⟨i, q, h⟩ := leg.run_eq f p
  have hr : (leg.run f).run' p = some (f.boundTo i (leg.target f p)) := by
    rw [EStateM.run', EStateM.run, h]
  refine ⟨i, ?_⟩
  rw [travel, hr, Option.map_eq_bind]
  rfl

/-- A bound function stays what it is. -/
lemma travel_of_isBound (h : f.isBound) (legs : List (Leg × Process)) :
    f.travel legs = some (List.replicate legs.length f) := by
  induction legs with
  | nil => rfl
  | cons stage legs ih =>
    obtain ⟨leg, p⟩ := stage
    obtain ⟨i, hi⟩ := f.travel_cons leg p legs
    rw [hi, boundTo_of_isBound h, ih]
    rfl

/-- So the first leg decides what it is after every one. -/
lemma travel_eq (f : Function) (leg : Leg) (p : Process) (legs : List (Leg × Process)) :
    ∃ i, f.travel ((leg, p) :: legs) =
      some (List.replicate (legs.length + 1) (f.boundTo i (leg.target f p))) := by
  obtain ⟨i, hi⟩ := f.travel_cons leg p legs
  refine ⟨i, ?_⟩
  rw [hi, travel_of_isBound isBound_boundTo]
  rfl

/-- **Bindings last.** A function gets to the end of every way and is bound from the first leg on,
if not before. On the whole way it has its name and its body, and its receiver, once it has one, is
what it was bound to before, else what the first leg binds it to; its calls see that, beside their
arguments. Once it is bound it is one and the same function. -/
theorem binding_lasts (f : Function) (legs : List (Leg × Process)) :
    ∃ gs, f.travel legs = some gs ∧ gs.length = legs.length ∧ (∀ g ∈ gs, g.isBound) ∧
      (∀ g ∈ f :: gs, g.name = f.name ∧ g.body = f.body ∧ ∀ r, g.receiver? = some r →
        f.receiver?.or (legs.head?.map fun s => s.1.target f s.2) = some r ∧
        ∀ depth args, g.call (depth + 1) args = f.body.apply depth r args) ∧
      (f :: gs).Pairwise fun g h => g.isBound → Value.function g == .function h := by
  have ho (o : Option Value) {r : Value} (hr : f.receiver? = some r) :
      f.receiver?.or o = some r := by
    rw [hr, Option.some_or]
  have hb (g : Function) : Value.function g == .function g := Value.beq_self nofun
  cases legs with
  | nil =>
    refine ⟨[], rfl, rfl, nofun, fun g hg => ?_, List.pairwise_singleton _ _⟩
    obtain rfl := List.mem_singleton.1 hg
    exact ⟨rfl, rfl, fun r hr => ⟨ho _ hr, call_of_receiver hr⟩⟩
  | cons stage legs =>
    obtain ⟨leg, p⟩ := stage
    obtain ⟨i, hi⟩ := f.travel_eq leg p legs
    refine ⟨_, hi, List.length_replicate, fun g hg => ?_, fun g hg => ?_, ?_⟩
    · rw [List.eq_of_mem_replicate hg]
      exact isBound_boundTo
    · obtain rfl | hg := List.mem_cons.1 hg
      · exact ⟨rfl, rfl, fun r hr => ⟨ho _ hr, call_of_receiver hr⟩⟩
      · obtain rfl := List.eq_of_mem_replicate hg
        refine ⟨rfl, rfl, fun r hr => ⟨?_, call_of_receiver hr⟩⟩
        rw [← hr, receiver?_boundTo]
        exact Option.or_some
    · refine List.pairwise_cons.2 ⟨fun g hg hf => ?_, ?_⟩
      · rw [List.eq_of_mem_replicate hg, boundTo_of_isBound hf]
        exact hb f
      · exact List.pairwise_replicate.2 (.inr fun _ => hb _)

end Callable

end ObjectModel
