import Mathlib
import ObjectModel.Call
import ObjectModel.Proofs.Registry
import ObjectModel.Startup

/-!
Which names a computation asks the registry for. A computation that runs to its end asks for all of
them, in order, and one that stops with an error for the first of them; nothing else happens to the
registry. Making values, reading members and calling functions ask for none.
-/

namespace ObjectModel

/-- From `p` to `q` the names have been asked for, and identities only given out. -/
structure Process.Advance (names : List String) (p q : Process) : Prop where
  next_le : p.next ≤ q.next
  registry_eq : q.registry = p.registry.register names

namespace Process

variable {p q q' : Process}

lemma Advance.refl (p : Process) : Advance [] p p := ⟨le_rfl, rfl⟩

lemma Advance.trans {xs ys : List String} (h : Advance xs p q) (h' : Advance ys q q') :
    Advance (xs ++ ys) p q' :=
  ⟨h.next_le.trans h'.next_le, by rw [h'.registry_eq, h.registry_eq, Registry.register_append]⟩

end Process

namespace Act

open Process (Advance)

variable {ε ε' α β : Type} {xs ys : List String}

/-- What has become of the process when a computation is over that asks for `names`. -/
inductive Ends (names : List String) (p : Process) : EStateM.Result ε Process α → Prop where
  | ok {a : α} {q : Process} (h : Advance names p q) : Ends names p (.ok a q)
  | error {e : ε} {q : Process} {asked : List String} (ha : asked <+: names)
      (h : Advance asked p q) : Ends names p (.error e q)

def Asks (act : Act ε α) (names : List String) : Prop := ∀ p, Ends names p (act p)

/-! ### Rules -/

lemma asks_pure (a : α) : (pure a : Act ε α).Asks [] := fun p => .ok (.refl p)

lemma asks_throw (e : ε) : (throw e : Act ε α).Asks xs :=
  fun p => .error (List.nil_prefix) (.refl p)

lemma Asks.bind {act : Act ε α} {f : α → Act ε β} (h : act.Asks xs) (hf : ∀ a, (f a).Asks ys) :
    (act >>= f).Asks (xs ++ ys) := by
  intro p
  rw [bind_apply]
  have he := h p
  generalize act p = x at he ⊢
  cases he with
  | error ha hp => exact .error (ha.trans (List.prefix_append _ _)) hp
  | @ok a q hp =>
    have he := hf a q
    simp only
    generalize f a q = y at he ⊢
    cases he with
    | ok hq => exact .ok (hp.trans hq)
    | error ha hq => exact .error ((List.prefix_append_right_inj xs).2 ha) (hp.trans hq)

/-- A step that asks for nothing more. -/
lemma Asks.andThen {act : Act ε α} {f : α → Act ε β} (h : act.Asks xs) (hf : ∀ a, (f a).Asks []) :
    (act >>= f).Asks xs := by
  rw [← List.append_nil xs]
  exact h.bind hf

lemma Asks.mapError {act : Act ε α} (h : act.Asks xs) (f : ε → ε') : (act.mapError f).Asks xs := by
  intro p
  rw [mapError_apply]
  have he := h p
  generalize act p = x at he ⊢
  cases he with
  | ok hp => exact .ok hp
  | error ha hp => exact .error ha hp

/-! ### What a process does -/

lemma asks_fresh : (fresh : Act ε Ident).Asks [] := fun p => .ok ⟨Nat.le_succ p.next, rfl⟩

lemma asks_emit (e : Event) : (emit e : Act ε Unit).Asks [] := fun _ => .ok ⟨le_rfl, rfl⟩

lemma asks_registry : (registry : Act ε Registry).Asks [] := fun p => .ok (.refl p)

lemma asks_intern (name : String) : (intern name : Act ε Keyword).Asks [name] :=
  fun p => .ok ⟨(p.next_intern name).ge, p.registry_intern name⟩

lemma asks_internAll (names : List String) :
    (internAll names : Act ε (List Keyword)).Asks names := by
  induction names with
  | nil => exact asks_pure _
  | cons name names ih => exact (asks_intern name).bind fun _ => ih.andThen fun _ => asks_pure _

end Act

open Act

variable {ε : Type}

/-- The names that starting from the settings asks for: none with a level that is not one. -/
def Settings.names (s : Settings) : List String :=
  match s.level with
  | .ok _ => s.preloadKeywords
  | .error _ => []

lemma asks_start (s : Settings) : s.start.Asks s.names := by
  unfold Settings.start Settings.names
  cases s.level with
  | error e => exact asks_throw e
  | ok level =>
    have hs : (modify fun p => p.subscribe level s.logAnsi : Act SettingsError PUnit).Asks [] :=
      fun p => .ok ⟨(p.next_subscribe level s.logAnsi).ge, p.registry_subscribe level s.logAnsi⟩
    refine hs.bind fun _ => (asks_internAll _).andThen fun _ => ?_
    exact asks_registry.bind fun _ => (asks_emit _).bind fun _ => asks_pure _

/-! ### Values -/

namespace Value

lemma asks_newList (items : List Value) : (newList items : Act ε Value).Asks [] :=
  asks_fresh.bind fun _ => asks_pure _

lemma asks_newObject (members : List (String × Value)) :
    (newObject members : Act ε Value).Asks [] :=
  asks_fresh.bind fun _ => asks_pure _

lemma asks_newMap (entries : List (MapKey Keyword × Value)) :
    (newMap entries : Act ε Value).Asks [] :=
  asks_fresh.bind fun _ => asks_pure _

lemma asks_newPairs (pairs : List (Value × Value)) :
    (newPairs pairs : Act ε (List Value)).Asks [] := by
  induction pairs with
  | nil => exact asks_pure _
  | cons p pairs ih => exact (asks_newList _).bind fun _ => ih.bind fun _ => asks_pure _

lemma asks_newEntries (members : List (String × Value)) :
    (newEntries members : Act ε Value).Asks [] :=
  (asks_newPairs _).bind fun _ => asks_newList _

end Value

lemma Callable.asks_bind (f : Function) (r : Value) : (f.bind r : Act ε Function).Asks [] := by
  unfold Callable.bind
  split
  · exact asks_pure _
  · exact asks_fresh.bind fun _ => asks_pure _

lemma asks_nilMember (key : MemberKey) : (nilMember key).Asks [] := by
  unfold nilMember
  split
  · exact asks_pure _
  · exact (asks_emit _).bind fun _ => asks_throw _

namespace Value

lemma asks_settle (v : Value) (stored : Option Value) :
    (v.settle stored : Act ε Value).Asks [] := by
  unfold settle
  split
  · exact (Callable.asks_bind _ v).bind fun _ => asks_pure _
  all_goals exact asks_pure _

lemma asks_member (v : Value) (key : MemberKey) : (v.member key).Asks [] := by
  unfold member
  split
  · exact asks_nilMember key
  · exact asks_registry.bind fun _ => asks_settle v _

lemma asks_memberPath (v : Value) (keys : List MemberKey) : (v.memberPath keys).Asks [] := by
  induction keys generalizing v with
  | nil => exact asks_pure _
  | cons key keys ih => exact (asks_member v key).bind fun u => ih u

end Value

lemma Builtin.asks_listOrNil (items : Option (List Value)) :
    (listOrNil items : Act ε Value).Asks [] := by
  cases items with
  | some items => exact Value.asks_newList items
  | none => exact asks_pure _

lemma Builtin.asks_run (b : Builtin) (this : Value) (args : List Value) :
    (b.run this args : Act ε Value).Asks [] := by
  cases b with
  | keys => exact asks_listOrNil _
  | values => exact asks_listOrNil _
  | entries =>
    simp only [run]
    split
    · exact (Value.asks_newPairs _).bind fun _ => Value.asks_newList _
    · exact asks_pure _
  | get => exact asks_pure _
  | has => exact asks_pure _

lemma Callable.asks_call (depth : Nat) (f : Function) (args : List Value) :
    (f.call depth args).Asks [] := by
  induction depth generalizing f args with
  | zero => exact asks_throw _
  | succ depth ih =>
    unfold call
    split
    · exact Builtin.asks_run _ _ _
    · split
      · exact asks_pure _
      · exact Value.asks_newList _
      · exact asks_pure _
      · exact asks_pure _
      · exact asks_throw _
      · exact (Value.asks_memberPath _ _).mapError _
      · exact (Value.asks_memberPath _ _).mapError _
      · refine ((Value.asks_member _ _).mapError _).bind fun v => ?_
        split
        · exact ih _ _
        · exact asks_pure _
      · split
        · exact ih _ _
        · exact asks_pure _

end ObjectModel
