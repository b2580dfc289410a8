import Mathlib
import ObjectModel.Call
import ObjectModel.Proofs.FirstOccurrence
import ObjectModel.Proofs.Reading
import ObjectModel.Proofs.Registry
import ObjectModel.Value.Parts

/-!
What a computation reports. Each name that it registers is reported when it is registered, and a
lookup that nil refuses is reported once, by whoever refuses it, on its way out as an error; that
is all there is to report. A native function may fail with a lookup error that nobody refused, which
is not reported: so the keys of those errors are kept track of.
-/

namespace ObjectModel

/-- Errors of which some are failed lookups. -/
class Fails (ε : Type) where
  /-- The key that was looked up. -/
  lookup? : ε → Option MemberKey

instance : Fails LookupError := ⟨fun e => some e.member⟩

instance : Fails CallError where
  lookup?
    | .lookup e => some e.member
    | .tooDeep => none

/-! ### Native functions that fail -/

/-- The key that the code fails with. -/
def Code.failure? {κ ν : Type} : Code κ ν → Option κ
  | .fail key => some key
  | _ => none

def Body.failure? {ν : Type} : Body ν → Option MemberKey
  | .builtin _ => none
  | .native _ code => code.failure?

namespace Value

variable {K : Set MemberKey} {v u : Value}

def failure? : Value → Option MemberKey
  | function f => f.body.failure?
  | _ => none

/-- Whatever function is in the value, if it fails then with one of these keys. -/
def FailsOnly (K : Set MemberKey) (v : Value) : Prop :=
  ∀ u : Value, u.Within v → ∀ key ∈ u.failure?, key ∈ K

lemma failsOnly_of_parts (hv : ∀ key ∈ v.failure?, key ∈ K) (h : ∀ u ∈ v.parts, u.FailsOnly K) :
    v.FailsOnly K := by
  intro u hu
  cases hu with
  | refl => exact hv
  | part hw hp => exact h _ hp u hw

lemma FailsOnly.of_mem_parts (h : v.FailsOnly K) (hu : u ∈ v.parts) : u.FailsOnly K :=
  fun _ hw => h _ (.part hw hu)

lemma failsOnly_univ (v : Value) : v.FailsOnly Set.univ := fun _ _ _ _ => Set.mem_univ _

lemma failsOnly_of_plain (hp : v.parts = []) (hf : v.failure? = none) : v.FailsOnly K :=
  failsOnly_of_parts (by simp [hf]) (by simp [hp])

lemma failsOnly_list {items : List Value} (i : Ident) (h : ∀ v ∈ items, v.FailsOnly K) :
    (list i items).FailsOnly K :=
  failsOnly_of_parts (by simp [failure?]) h

lemma failsOnly_object {members : List (String × Value)} (i : Ident)
    (h : ∀ v ∈ Entries.values members, v.FailsOnly K) : (object i members).FailsOnly K :=
  failsOnly_of_parts (by simp [failure?]) h

lemma failsOnly_map {entries : List (MapKey Keyword × Value)} (i : Ident)
    (h : ∀ v ∈ Entries.values entries, v.FailsOnly K) : (map i entries).FailsOnly K :=
  failsOnly_of_parts (by simp [failure?]) h

lemma failsOnly_mapKey (k : MapKey Keyword) : k.toValue.FailsOnly K := by
  cases k <;> exact failsOnly_of_plain rfl rfl

lemma failsOnly_ofBuiltin (b : Builtin) : (ofBuiltin b).FailsOnly K := failsOnly_of_plain rfl rfl

/-- A function that is bound to a value has that one in it too. -/
lemma FailsOnly.bound {f : Function} {r : Value} (hf : (function f).FailsOnly K)
    (hr : r.FailsOnly K) (i : Ident) :
    (function { f with receiver := some (i, r) }).FailsOnly K := by
  refine failsOnly_of_parts (fun key hk => hf _ .refl key hk) fun u hu => ?_
  rcases List.mem_append.1 (show u ∈ f.body.captured ++ [r] from hu) with hu | hu
  · exact hf.of_mem_parts (List.mem_append_left _ hu)
  · rwa [List.mem_singleton.1 hu]

lemma FailsOnly.this {f : Function} (hf : (function f).FailsOnly K) : f.this.FailsOnly K := by
  unfold Callable.this
  cases hr : f.receiver? with
  | none => exact failsOnly_of_plain rfl rfl
  | some r =>
    refine hf.of_mem_parts (List.mem_append_right f.body.captured ?_)
    rw [hr]
    exact List.mem_singleton_self r

end Value

/-! ### Reporting -/

/-- From `p` to `q` these names were registered, each was reported, and nothing else was. -/
structure Process.Notes (names : List String) (p q : Process) : Prop where
  names_eq : q.registry.names = p.registry.names ++ names
  events_eq : q.events = p.events ++ names.map .interned
  subscriber_eq : q.subscriber = p.subscriber

namespace Process

variable {p q q' : Process}

lemma Notes.refl (p : Process) : Notes [] p p := ⟨by simp, by simp, rfl⟩

lemma Notes.trans {xs ys : List String} (h : Notes xs p q) (h' : Notes ys q q') :
    Notes (xs ++ ys) p q' where
  names_eq := by rw [h'.names_eq, h.names_eq, List.append_assoc]
  events_eq := by rw [h'.events_eq, h.events_eq, List.map_append, List.append_assoc]
  subscriber_eq := h'.subscriber_eq.trans h.subscriber_eq

lemma notes_intern (p : Process) (name : String) :
    ∃ names, Notes names p (p.intern name).2 := by
  unfold intern
  split
  · exact ⟨[], .refl p⟩
  · next h =>
    refine ⟨[name], ?_, rfl, rfl⟩
    change (p.registry.intern name).2.names = _
    rw [Registry.names_intern, if_neg (Registry.find?_eq_none.1 h)]

end Process

namespace Act

open Process (Notes)

variable {ε ε' α β : Type} [Fails ε] [Fails ε'] {K : Set MemberKey} {A : α → Prop} {B : β → Prop}

/-- How a computation ends: with a result that has the property `A`, with an error that nothing
reported, whose key is one of `K` if it has one, or with the key that was refused, just reported. -/
inductive Reported (K : Set MemberKey) (A : α → Prop) (p : Process) :
    EStateM.Result ε Process α → Prop where
  | ok {names : List String} {a : α} {q : Process} (h : Notes names p q) (ha : A a) :
      Reported K A p (.ok a q)
  | silent {names : List String} {e : ε} {q : Process} (h : Notes names p q)
      (he : ∀ key ∈ Fails.lookup? e, key ∈ K) : Reported K A p (.error e q)
  | refused {names : List String} {e : ε} {q : Process} {key : MemberKey} (h : Notes names p q)
      (he : Fails.lookup? e = some key) (hk : key ≠ .capability .typeTag) :
      Reported K A p (.error e (q.emit (.nilLookup key)))

def Reports (K : Set MemberKey) (A : α → Prop) (act : Act ε α) : Prop :=
  ∀ p, Reported K A p (act p)

/-! ### Rules -/

lemma reports_pure {a : α} (h : A a) : (pure a : Act ε α).Reports K A := fun p => .ok (.refl p) h

lemma reports_throw {e : ε} (h : ∀ key ∈ Fails.lookup? e, key ∈ K) :
    (throw e : Act ε α).Reports K A := fun p => .silent (.refl p) h

lemma Reports.bind {act : Act ε α} {f : α → Act ε β} (h : act.Reports K A)
    (hf : ∀ a, A a → (f a).Reports K B) : (act >>= f).Reports K B := by
  intro p
  rw [bind_apply]
  have he := h p
  generalize act p = x at he ⊢
  cases he with
  | silent hn he => exact .silent hn he
  | refused hn he hk => exact .refused hn he hk
  | @ok _ a q hn ha =>
    have he := hf a ha q
    simp only
    generalize f a q = y at he ⊢
    cases he with
    | ok hn' hb => exact .ok (hn.trans hn') hb
    | silent hn' he => exact .silent (hn.trans hn') he
    | refused hn' he hk => exact .refused (hn.trans hn') he hk

lemma Reports.mapError {act : Act ε α} (h : act.Reports K A) (f : ε → ε')
    (hf : ∀ e, Fails.lookup? (f e) = Fails.lookup? e) : (act.mapError f).Reports K A := by
  intro p
  rw [mapError_apply]
  have he := h p
  generalize act p = x at he ⊢
  cases he with
  | ok hn ha => exact .ok hn ha
  | silent hn he => exact .silent hn (by rwa [hf])
  | refused hn he hk => exact .refused hn ((hf _).trans he) hk

/-! ### What a process does -/

/-- Of what it gives nothing is asked. -/
abbrev Any : α → Prop := fun _ => True

lemma reports_fresh : (fresh : Act ε Ident).Reports K Any :=
  fun p => .ok ⟨(Notes.refl p).1, (Notes.refl p).2, rfl⟩ trivial

lemma reports_registry : (registry : Act ε Registry).Reports K Any :=
  fun p => .ok (.refl p) trivial

lemma reports_intern (name : String) : (intern name : Act ε Keyword).Reports K Any := by
  intro p
  obtain ⟨names, h⟩ := p.notes_intern name
  exact .ok h trivial

end Act

open Act

variable {ε : Type} [Fails ε] {K : Set MemberKey}

/-! ### Making values -/

namespace Value

lemma reports_newList {items : List Value} (h : ∀ v ∈ items, v.FailsOnly K) :
    (newList items : Act ε Value).Reports K (FailsOnly K) :=
  reports_fresh.bind fun i _ => reports_pure (failsOnly_list i h)

lemma reports_newObject {members : List (String × Value)}
    (h : ∀ v ∈ Entries.values members, v.FailsOnly K) :
    (newObject members : Act ε Value).Reports K (FailsOnly K) :=
  reports_fresh.bind fun i _ => reports_pure (failsOnly_object i h)

lemma reports_newMap {entries : List (MapKey Keyword × Value)}
    (h : ∀ v ∈ Entries.values entries, v.FailsOnly K) :
    (newMap entries : Act ε Value).Reports K (FailsOnly K) :=
  reports_fresh.bind fun i _ => reports_pure (failsOnly_map i h)

lemma reports_newPairs {pairs : List (Value × Value)}
    (h : ∀ e ∈ pairs, e.1.FailsOnly K ∧ e.2.FailsOnly K) :
    (newPairs pairs : Act ε (List Value)).Reports K fun vs => ∀ v ∈ vs, v.FailsOnly K := by
  induction pairs with
  | nil => exact reports_pure (by simp)
  | cons e pairs ih =>
    obtain ⟨⟨ha, hb⟩, h⟩ := List.forall_mem_cons.1 h
    refine (reports_newList (by simp [ha, hb])).bind fun v hv => (ih h).bind fun vs hvs => ?_
    exact reports_pure (List.forall_mem_cons.2 ⟨hv, hvs⟩)

/-- The pairs of an object or of a map. -/
lemma failsOnly_pairs {κ : Type} {es : List (κ × Value)} {key : κ → Value}
    (hk : ∀ k, (key k).FailsOnly K) (h : ∀ v ∈ Entries.values es, v.FailsOnly K) :
    ∀ e ∈ es.map fun e => (key e.1, e.2), e.1.FailsOnly K ∧ e.2.FailsOnly K := by
  intro e he
  obtain ⟨d, hd, rfl⟩ := List.mem_map.1 he
  exact ⟨hk d.1, h d.2 (List.mem_map_of_mem hd)⟩

lemma reports_newEntries {members : List (String × Value)}
    (h : ∀ v ∈ Entries.values members, v.FailsOnly K) :
    (newEntries members : Act ε Value).Reports K (FailsOnly K) :=
  (reports_newPairs (failsOnly_pairs (fun _ => failsOnly_of_plain rfl rfl) h)).bind
    fun _ hv => reports_newList hv

end Value

/-! ### Reading -/

lemma Callable.reports_bind {f : Function} {r : Value} (hf : (Value.function f).FailsOnly K)
    (hr : r.FailsOnly K) :
    (f.bind r : Act ε Function).Reports K fun g => (Value.function g).FailsOnly K := by
  unfold Callable.bind
  split
  · exact reports_pure hf
  · exact reports_fresh.bind fun i _ => reports_pure (hf.bound hr i)

lemma reports_nilMember (key : MemberKey) : (nilMember key).Reports K (Value.FailsOnly K) := by
  intro p
  by_cases hk : key = .capability .typeTag
  · subst hk
    exact .ok (.refl p) (Value.failsOnly_of_plain rfl rfl)
  · rw [Value.nilMember_error hk]
    exact .refused (.refl p) rfl hk

namespace Value

variable {v : Value}

lemma reports_settle {stored : Option Value} (hv : v.FailsOnly K)
    (h : ∀ u ∈ stored, u.FailsOnly K) :
    (v.settle stored : Act ε Value).Reports K (FailsOnly K) := by
  unfold settle
  split
  · exact (Callable.reports_bind (h _ rfl) hv).bind fun g hg => reports_pure hg
  · exact reports_pure (failsOnly_of_plain rfl rfl)
  · exact reports_pure (failsOnly_of_plain rfl rfl)
  · exact reports_pure (h _ rfl)

lemma failsOnly_stored? (hv : v.FailsOnly K) (r : Registry) (key : MemberKey) :
    ∀ u ∈ v.stored? r key, u.FailsOnly K := by
  intro u hu
  unfold stored? at hu
  split at hu
  · exact hv.of_mem_parts (Entries.mem_values_of_get? hu)
  · split_ifs at hu <;> cases hu <;> exact failsOnly_of_plain rfl rfl
  · obtain ⟨b, -, rfl⟩ := Option.map_eq_some_iff.1 hu
    exact failsOnly_ofBuiltin b
  · obtain ⟨b, -, rfl⟩ := Option.map_eq_some_iff.1 hu
    exact failsOnly_ofBuiltin b
  all_goals
    first
      | split_ifs at hu <;> cases hu <;> exact failsOnly_of_plain rfl rfl
      | cases hu

lemma reports_member (hv : v.FailsOnly K) (key : MemberKey) :
    (v.member key).Reports K (FailsOnly K) := by
  unfold member
  split
  · exact reports_nilMember key
  · exact reports_registry.bind fun r _ => reports_settle hv (failsOnly_stored? hv r key)

lemma reports_memberPath (hv : v.FailsOnly K) (keys : List MemberKey) :
    (v.memberPath keys).Reports K (FailsOnly K) := by
  induction keys generalizing v with
  | nil => exact reports_pure hv
  | cons key keys ih => exact (reports_member hv key).bind fun u hu => ih hu

/-! ### Records -/

lemma failsOnly_recordKeys? (v : Value) : ∀ ks ∈ v.recordKeys?, ∀ k ∈ ks, k.FailsOnly K := by
  intro ks hks k hk
  cases v with
  | object i members =>
    cases hks
    obtain ⟨m, -, rfl⟩ := List.mem_map.1 hk
    exact failsOnly_of_plain rfl rfl
  | map i entries =>
    cases hks
    obtain ⟨e, -, rfl⟩ := List.mem_map.1 hk
    exact failsOnly_mapKey e.1
  | _ => cases hks

lemma failsOnly_recordValues? (hv : v.FailsOnly K) :
    ∀ us ∈ v.recordValues?, ∀ u ∈ us, u.FailsOnly K := by
  intro us hus u hu
  cases v with
  | object i members =>
    cases hus
    exact hv.of_mem_parts hu
  | map i entries =>
    cases hus
    exact hv.of_mem_parts hu
  | _ => cases hus

lemma failsOnly_recordPairs? (hv : v.FailsOnly K) :
    ∀ es ∈ v.recordPairs?, ∀ e ∈ es, e.1.FailsOnly K ∧ e.2.FailsOnly K := by
  intro es hes
  cases v with
  | object i members =>
    cases hes
    exact failsOnly_pairs (fun _ => failsOnly_of_plain rfl rfl) fun _ => hv.of_mem_parts
  | map i entries =>
    cases hes
    exact failsOnly_pairs failsOnly_mapKey fun _ => hv.of_mem_parts
  | _ => cases hes

end Value

/-! ### Calling -/

namespace Builtin

variable {this : Value}

lemma reports_listOrNil {items : Option (List Value)} (h : ∀ vs ∈ items, ∀ v ∈ vs, v.FailsOnly K) :
    (listOrNil items : Act ε Value).Reports K (Value.FailsOnly K) := by
  cases items with
  | some items => exact Value.reports_newList (h items rfl)
  | none => exact reports_pure (Value.failsOnly_of_plain rfl rfl)

lemma failsOnly_fetch? (h : this.FailsOnly K) (args : List Value) :
    ((fetch? this args).getD .nil).FailsOnly K := by
  cases hf : fetch? this args with
  | none => exact Value.failsOnly_of_plain rfl rfl
  | some v =>
    rw [Option.getD_some]
    obtain ⟨es, he, hes⟩ := Option.bind_eq_some_iff.1 hf
    obtain ⟨a, -, ha⟩ := Option.bind_eq_some_iff.1 hes
    obtain ⟨key, -, hv⟩ := Option.bind_eq_some_iff.1 ha
    cases this with
    | map i entries =>
      cases he
      exact h.of_mem_parts (Entries.mem_values_of_get? hv)
    | _ => cases he

lemma reports_run (h : this.FailsOnly K) (b : Builtin) (args : List Value) :
    (b.run this args : Act ε Value).Reports K (Value.FailsOnly K) := by
  cases b with
  | keys => exact reports_listOrNil this.failsOnly_recordKeys?
  | values => exact reports_listOrNil (Value.failsOnly_recordValues? h)
  | entries =>
    simp only [run]
    split
    · next hp =>
      exact (Value.reports_newPairs (Value.failsOnly_recordPairs? h _ hp)).bind
        fun _ hv => Value.reports_newList hv
    · exact reports_pure (Value.failsOnly_of_plain rfl rfl)
  | get => exact reports_pure (failsOnly_fetch? h args)
  | has => exact reports_pure (Value.failsOnly_of_plain rfl rfl)

end Builtin

lemma Callable.reports_call (depth : Nat) {f : Function} {args : List Value}
    (hf : (Value.function f).FailsOnly K) (ha : ∀ v ∈ args, v.FailsOnly K) :
    (f.call depth args).Reports K (Value.FailsOnly K) := by
  induction depth generalizing f args with
  | zero => exact reports_throw (by simp [Fails.lookup?])
  | succ depth ih =>
    unfold call
    split
    · exact Builtin.reports_run hf.this _ _
    · next i code hb =>
      split
      · exact reports_pure hf.this
      · exact Value.reports_newList ha
      · exact reports_pure (Value.failsOnly_of_plain rfl rfl)
      · refine reports_pure (hf.of_mem_parts (List.mem_append_left _ ?_))
        rw [hb]
        exact List.mem_singleton_self _
      · -- the one error that nil has no part in
        next key =>
        refine reports_throw fun k hk => hf _ .refl k ?_
        change k ∈ f.body.failure?
        rw [hb]
        exact hk
      · exact (Value.reports_memberPath hf.this _).mapError CallError.lookup fun _ => rfl
      · refine (Value.reports_memberPath ?_ _).mapError CallError.lookup fun _ => rfl
        cases args with
        | nil => exact Value.failsOnly_of_plain rfl rfl
        | cons a args => exact ha a List.mem_cons_self
      · next key =>
        have hm := (Value.reports_member hf.this key).mapError CallError.lookup fun _ => rfl
        refine hm.bind fun v hv => ?_
        split
        · exact ih hv ha
        · exact reports_pure hv
      · split
        · obtain ⟨hg, ha⟩ := List.forall_mem_cons.1 ha
          exact ih hg ha
        · exact reports_pure (Value.failsOnly_of_plain rfl rfl)

end ObjectModel
