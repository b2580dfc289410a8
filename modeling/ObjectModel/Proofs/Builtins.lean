import Mathlib
import ObjectModel.Proofs.Enumeration

/-!
The functions that records answer with, wherever they get to. A script only ever sees them bound to
the record they were read from, and binding sticks; so whoever calls one of them, in whatever
place, calls it on a record that it is made for. Main statement:
`Script.Session.builtins_stay_bound`.
-/

namespace ObjectModel

open List (Forall₂)
open Script

/-! ### Calls inside calls -/

/-- Calling `f` with `args` in `p` comes to calling `g` with `as` in `q`: at once, or by way of the
functions that natives call in their turn. -/
inductive Callable.Calls : Function → List Value → Process → Function → List Value → Process → Prop
    where
  | here (f : Function) (args : List Value) (p : Process) : Calls f args p f args p
  | send {f g h : Function} {i : Ident} {key : MemberKey} {args as : List Value} {p p' q : Process}
      (hf : f.body = .native i (.send key)) (hm : f.this.member key p = .ok (.function g) p')
      (hc : Calls g args p' h as q) : Calls f args p h as q
  | apply {f g h : Function} {i : Ident} {rest as : List Value} {p q : Process}
      (hf : f.body = .native i .apply) (hc : Calls g rest p h as q) :
      Calls f (.function g :: rest) p h as q

/-- Running the command comes to calling `g` with `as` in `q`. -/
inductive Script.Command.Calls (s : Session) :
    Command → Function → List Value → Process → Prop where
  | call {fn : Expr} {args : List Expr} {into : Option String} {quiet : Bool} {f g : Function}
      {vs as : List Value} {p p' q : Process}
      (hf : fn.eval s.registers s.process = .ok (.function f) p)
      (hv : Expr.evalItems s.registers args p = .ok vs p') (hc : f.Calls vs p' g as q) :
      Calls s (.make (.call fn args) into quiet) g as q

/-- A function that is called has the value in it, or has it in an argument. -/
def Script.Command.Uses (s : Session) (c : Command) (v : Value) : Prop :=
  ∃ g as q, c.Calls s g as q ∧ ∃ u ∈ Value.function g :: as, v.Within u

section Alike

variable {W : Type} [Preorder W] {P : Pairing W} {w : W}

lemma Pairing.calls_alike {f g : Function} {args as : List Value} {p q : Process}
    (h : f.Calls args p g as q) (hj : P.Joins w p p) (hf : P.Alike w (.function f) (.function f))
    (ha : Forall₂ (P.Alike w) args args) :
    ∃ w', w ≤ w' ∧ P.Joins w' q q ∧ P.Alike w' (.function g) (.function g) ∧
      Forall₂ (P.Alike w') as as := by
  induction h generalizing w with
  | here f args p => exact ⟨w, le_rfl, hj, hf, ha⟩
  | @send f g h i key args as p p' q hb hm _ ih =>
    have he := agree_member (rel_this hf) key p p hj
    rw [hm] at he
    cases he with
    | ok hw hj hg =>
      obtain ⟨w', hw', h'⟩ := ih hj hg (P.items_mono hw ha)
      exact ⟨w', hw.trans hw', h'⟩
  | apply _ _ ih =>
    obtain _ | ⟨hg, ha⟩ := ha
    exact ih hj hg ha

lemma Pairing.command_calls_alike {s : Session} {c : Command} {g : Function} {as : List Value}
    {q : Process} (h : c.Calls s g as q) (hs : P.Together w s s) :
    ∃ w', P.Alike w' (.function g) (.function g) ∧ Forall₂ (P.Alike w') as as := by
  obtain ⟨hj, hr⟩ := hs
  cases h with
  | @call fn args _ _ _ _ _ _ _ _ _ hf hv hc =>
    have he := agree_eval hr fn _ _ hj
    rw [hf] at he
    cases he with
    | ok hw hj hf =>
      have he := agree_items (P.members_mono hw hr) args _ _ hj
      rw [hv] at he
      cases he with
      | ok hw' hj hv =>
        obtain ⟨w', -, -, hg, ha⟩ := calls_alike hc hj (P.alike_mono hw' hf) hv
        exact ⟨w', hg, ha⟩

end Alike

/-! ### Builtins in service -/

/-- What is true of the function if it is a builtin: it is bound to a record that it is made for, it
stays so whatever it is bound to and wherever it is read, and its calls go by that record. -/
structure Callable.Serves (f : Function) : Prop where
  /-- The list that it answers with has an item for each entry. -/
  enumerates {b : Builtin} : f.body = .builtin b → b = .keys ∨ b = .values ∨ b = .entries →
    ∃ i r es, f.receiver = some (i, r) ∧ r.Presents es ∧ ∀ depth args p, ∃ j items q,
      f.call (depth + 1) args p = .ok (.list j items) q ∧ items.length = es.length
  get_eq : f.body = .builtin .get → ∃ i id entries, f.receiver = some (i, .map id entries) ∧
    ∀ depth args p, f.call (depth + 1) args p =
      .ok (((args.head?.bind Value.mapKey?).bind (Entries.get? · entries)).getD .nil) p
  has_eq : f.body = .builtin .has → ∃ i id entries, f.receiver = some (i, .map id entries) ∧
    ∀ depth args p, f.call (depth + 1) args p =
      .ok (.bool ((args.head?.bind Value.mapKey?).any (Entries.contains · entries))) p
  bind_eq {b : Builtin} : f.body = .builtin b → ∀ r p, (f.bind r : Act Fault Function) p = .ok f p
  member_eq {b : Builtin} : f.body = .builtin b → ∀ (r : Value) key p,
    r.stored? p.registry key = some (.function f) → r.member key p = .ok (.function f) p

namespace Value

lemma presents_of_kind {r : Value} (h : r.kind = .object ∨ r.kind = .map) :
    ∃ es, r.Presents es := by
  cases r with
  | object id members => exact ⟨_, .object id members⟩
  | map id entries => exact ⟨_, .map id entries⟩
  | _ => simp [kind] at h

lemma map_of_kind {r : Value} (h : r.kind = .map) : ∃ id entries, r = .map id entries := by
  cases r with
  | map id entries => exact ⟨id, entries, rfl⟩
  | _ => cases h

lemma fetch?_map (id : Ident) (entries : List (MapKey Keyword × Value)) (args : List Value) :
    Builtin.fetch? (.map id entries) args =
      (args.head?.bind Value.mapKey?).bind (Entries.get? · entries) := by
  cases args with
  | nil => rfl
  | cons a _ => rfl

lemma holds_map (id : Ident) (entries : List (MapKey Keyword × Value)) (args : List Value) :
    Builtin.holds (.map id entries) args =
      (args.head?.bind Value.mapKey?).any (Entries.contains · entries) := by
  cases args with
  | nil => rfl
  | cons a _ =>
    unfold Builtin.holds
    simp only [entries?, List.head?_cons, Option.bind_some]
    cases a.mapKey? <;> rfl

end Value

lemma Callable.serves_of_native {f : Function} {i : Ident} {code : Code MemberKey Value}
    (h : f.body = .native i code) : f.Serves := by
  have hb {b : Builtin} : f.body ≠ .builtin b := by
    rw [h]
    exact nofun
  exact ⟨fun hf => absurd hf hb, fun hf => absurd hf hb, fun hf => absurd hf hb,
    fun hf => absurd hf hb, fun hf => absurd hf hb⟩

lemma Builtin.serves (b : Builtin) (i : Ident) {r : Value} (h : b.Suits r) :
    Callable.Serves ⟨b.name, .builtin b, some (i, r)⟩ where
  enumerates {c} hb hc := by
    obtain rfl : b = c := by cases hb; rfl
    have hk : r.kind = .object ∨ r.kind = .map := by
      rcases hc with rfl | rfl | rfl <;> exact h
    obtain ⟨es, hr⟩ := Value.presents_of_kind hk
    refine ⟨i, r, es, rfl, hr, fun depth args p => ?_⟩
    rw [Value.call_builtin rfl]
    rcases hc with rfl | rfl | rfl
    · exact ⟨_, _, _, hr.run_keys args p, List.length_map _⟩
    · exact ⟨_, _, _, hr.run_values args p, List.length_map _⟩
    · exact ⟨_, _, _, hr.run_entries args p, List.length_mapIdx⟩
  get_eq hb := by
    cases hb
    obtain ⟨id, entries, rfl⟩ := Value.map_of_kind h
    refine ⟨i, id, entries, rfl, fun depth args p => ?_⟩
    rw [Value.call_builtin rfl, ← Value.fetch?_map id]
    rfl
  has_eq hb := by
    cases hb
    obtain ⟨id, entries, rfl⟩ := Value.map_of_kind h
    refine ⟨i, id, entries, rfl, fun depth args p => ?_⟩
    rw [Value.call_builtin rfl, ← Value.holds_map id]
    rfl
  bind_eq _ r' p := Value.bind_of_bound rfl r' p
  member_eq _ r' key p hs := by
    have ha : r'.isAbsent = false := by cases r' <;> simp_all [Value.stored?, Value.isAbsent]
    rw [Value.member_of_present ha, hs, Value.settle_function]

lemma Ledger.serves_of_alike {L : Ledger} {f : Function}
    (h : Ledger.pairing.Alike L (.function f) (.function f)) : f.Serves := by
  cases h with
  | native => exact Callable.serves_of_native rfl
  | bound _ hf =>
    cases hf with
    | native => exact Callable.serves_of_native rfl
  | @builtin b i _ r _ ht => exact b.serves i (pairing.tie_valid ht).1.2

/-- **Builtins stay bound**: every function that a script holds, in whatever value, and every one
that is called while a command runs, or is in such a function or its arguments, is bound to the
right kind of record if it is a builtin, and is called on nothing else. -/
theorem Script.Session.builtins_stay_bound (depth : Nat) (cs : List Command) :
    (∀ f : Function, (initial.run depth cs).2.Holds (.function f) → f.Serves) ∧
    (∀ (c : Command) (f : Function), c.Uses (initial.run depth cs).2 (.function f) → f.Serves) := by
  obtain ⟨L, -, ha⟩ := exists_ledger depth cs
  obtain ⟨L', hs⟩ := exists_together depth cs
  refine ⟨fun f hf => Ledger.serves_of_alike (ha _ hf), ?_⟩
  rintro c f ⟨g, as, q, hc, u, hu, hf⟩
  obtain ⟨L'', hg, has⟩ := Pairing.command_calls_alike hc hs
  have hau : Ledger.pairing.Alike L'' u u := List.forall₂_same.1 (.cons hg has) u hu
  exact Ledger.serves_of_alike (hau.of_within hf)

end ObjectModel
