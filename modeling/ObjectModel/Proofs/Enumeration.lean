import Mathlib
import ObjectModel.Proofs.FirstOccurrence
import ObjectModel.Proofs.Identity

/-!
Objects and maps as sequences of entries. Every way to enumerate a record gives the same entries in
the same order: its keys and values, what its slots answer when they are called, whenever that is,
passes over it and its text. Main statement: `Script.Session.enumerations_agree`.
-/

namespace ObjectModel

open Script

variable {ε : Type}

namespace Value

/-! ### Entries of a record -/

def memberPairs (members : List (String × Value)) : List (Value × Value) :=
  members.map fun m => (.str m.1, m.2)

def entryPairs (entries : List (MapKey Keyword × Value)) : List (Value × Value) :=
  entries.map fun e => (e.1.toValue, e.2)

/-- The entries of a record in their order, with the keys as values. Other values have none. -/
inductive Presents : Value → List (Value × Value) → Prop where
  | object (id : Ident) (members : List (String × Value)) :
      Presents (.object id members) (memberPairs members)
  | map (id : Ident) (entries : List (MapKey Keyword × Value)) :
      Presents (.map id entries) (entryPairs entries)

variable {r : Value} {es : List (Value × Value)}

lemma Presents.recordKeys?_eq (h : r.Presents es) : r.recordKeys? = some (es.map Prod.fst) := by
  cases h <;> simp [recordKeys?, Record.keys, ToValue.toValue, memberPairs, entryPairs]

lemma Presents.recordValues?_eq (h : r.Presents es) : r.recordValues? = some (es.map Prod.snd) := by
  cases h <;> simp [recordValues?, Record.values, ToValue.toValue, memberPairs, entryPairs]

lemma Presents.recordPairs?_eq (h : r.Presents es) : r.recordPairs? = some es := by
  cases h <;> rfl

lemma record?_eq_none (h : ∀ es, ¬ r.Presents es) :
    r.recordKeys? = none ∧ r.recordValues? = none := by
  cases r with
  | object id members => exact absurd (.object id members) (h _)
  | map id entries => exact absurd (.map id entries) (h _)
  | _ => exact ⟨rfl, rfl⟩

/-- Keys of maps are equal as values exactly if they are equal as keys. -/
lemma beq_toValue (j k : MapKey Keyword) : (j.toValue == k.toValue) = (j == k) := by
  rw [beq_def]
  cases j <;> cases k <;> first
    | rfl
    | simp [MapKey.toValue, same]

/-! ### Calling the slots -/

/-- The pairs as lists of two, with new identities from `i` on. -/
def numbered (i : Ident) (pairs : List (Value × Value)) : List Value :=
  pairs.mapIdx fun k e => .list (i + k) [e.1, e.2]

lemma newPairs_apply (pairs : List (Value × Value)) (p : Process) :
    (newPairs pairs : Act ε (List Value)) p =
      .ok (numbered p.next pairs) { p with next := p.next + pairs.length } := by
  induction pairs generalizing p with
  | nil => rfl
  | cons e pairs ih =>
    obtain ⟨a, b⟩ := e
    have hn : (newList [a, b] : Act ε Value) p = .ok (.list p.next [a, b]) p.fresh.2 := rfl
    rw [newPairs, Act.bind_apply, hn]
    simp only [Act.bind_apply, ih]
    simp [numbered, Process.fresh, List.mapIdx_cons, Nat.add_assoc, Nat.add_comm 1]

lemma member_builtin {key : MemberKey} {b : Builtin} {p : Process}
    (hs : r.stored? p.registry key = some (ofBuiltin b)) :
    r.member key p = .ok (.function ⟨b.name, .builtin b, some (p.next, r)⟩) p.fresh.2 := by
  have ha : r.isAbsent = false := by cases r <;> simp_all [stored?, isAbsent]
  rw [member_of_present ha, hs, ofBuiltin, settle_function]
  rfl

/-- A capability of records reads as its function, bound to the record. -/
lemma Presents.member_slot (h : r.Presents es) {c : Capability} {b : Builtin}
    (hc : c.builtin? = some b) (p : Process) :
    r.member (.capability c) p =
      .ok (.function ⟨b.name, .builtin b, some (p.next, r)⟩) p.fresh.2 :=
  member_builtin (by cases h <;> simp [stored?, hc])

lemma call_builtin {f : Function} {b : Builtin} (hf : f.body = .builtin b) (depth : Nat)
    (args : List Value) : f.call (depth + 1) args = b.run f.this args := by
  simp only [Callable.call, hf]

lemma Presents.run_keys (h : r.Presents es) (args : List Value) (p : Process) :
    (Builtin.keys.run r args : Act ε Value) p = .ok (.list p.next (es.map Prod.fst)) p.fresh.2 := by
  rw [Builtin.run, h.recordKeys?_eq]
  rfl

lemma Presents.run_values (h : r.Presents es) (args : List Value) (p : Process) :
    (Builtin.values.run r args : Act ε Value) p =
      .ok (.list p.next (es.map Prod.snd)) p.fresh.2 := by
  rw [Builtin.run, h.recordValues?_eq]
  rfl

lemma Presents.run_entries (h : r.Presents es) (args : List Value) (p : Process) :
    (Builtin.entries.run r args : Act ε Value) p =
      .ok (.list (p.next + es.length) (numbered p.next es))
        { p with next := p.next + es.length + 1 } := by
  rw [Builtin.run, h.recordPairs?_eq]
  simp only [Act.bind_apply, newPairs_apply]
  rfl

lemma newEntries_apply (members : List (String × Value)) (p : Process) :
    (newEntries members : Act ε Value) p =
      .ok (.list (p.next + members.length) (numbered p.next (memberPairs members)))
        { p with next := p.next + members.length + 1 } := by
  rw [newEntries, Act.bind_apply, newPairs_apply, List.length_map]
  rfl

end Value

/-! ### Passes and texts -/

namespace Cursor

lemma steps_succ (n : Nat) (c : Cursor) : c.steps (n + 1) =
    ((c.next.1, c.next.2.left) :: (c.next.2.steps n).1, (c.next.2.steps n).2) := rfl

/-- Steps give the members one after the other and then nothing more. -/
lemma steps_eq (n : Nat) (c : Cursor) : c.steps n =
    ((List.range n).map fun i => (c.rest[i]?, c.rest.length - (i + 1)), ⟨c.rest.drop n⟩) := by
  induction n generalizing c with
  | zero => rfl
  | succ n ih =>
    have hl : c.next.2.left = c.rest.length - 1 := by rw [left, c.rest_next, List.length_tail]
    rw [steps_succ, ih, hl, c.next_fst, c.rest_next, List.head?_eq_getElem?, List.drop_tail]
    simp [List.range_succ_eq_map, Function.comp_def, Nat.sub_sub, Nat.add_comm 1]

lemma fst_steps (n : Nat) (c : Cursor) :
    (c.steps n).1.map Prod.fst = (List.range n).map fun j => c.rest[j]? := by
  rw [steps_eq, List.map_map]
  rfl

end Cursor

namespace Shape

lemma displayMembers_eq_map (ms : List (String × Shape)) :
    displayMembers ms = ms.map fun m => m.1 ++ ": " ++ m.2.display := by
  induction ms with
  | nil => rfl
  | cons m ms ih =>
    obtain ⟨k, s⟩ := m
    rw [displayMembers, ih]
    rfl

lemma displayEntries_eq_map (es : List (MapKey String × Shape)) :
    displayEntries es = es.map fun e => e.1.display ++ " => " ++ e.2.display := by
  induction es with
  | nil => rfl
  | cons e es ih =>
    obtain ⟨k, s⟩ := e
    rw [displayEntries, ih]
    rfl

end Shape

namespace Value

/-- The text of a value for its reader, with these names of keywords. -/
def text (names : Keyword → String) (v : Value) : String := (v.shape names).display

lemma text_toValue (names : Keyword → String) (k : MapKey Keyword) :
    k.toValue.text names = (k.map names).display := by
  cases k <;> simp [text, MapKey.toValue, shape, Shape.display, MapKey.map, MapKey.display]

lemma text_object (names : Keyword → String) (id : Ident) (members : List (String × Value)) :
    (object id members).text names = "\x7b" ++ Text.joined ((memberPairs members).map fun e =>
      e.1.text names ++ ": " ++ e.2.text names) ++ "\x7d" := by
  simp only [text, shape, Shape.display, memberShapes_eq_map, Shape.displayMembers_eq_map,
    memberPairs, List.map_map, Function.comp_def]

lemma text_map (names : Keyword → String) (id : Ident) (entries : List (MapKey Keyword × Value)) :
    (map id entries).text names = "Map \x7b" ++ Text.joined ((entryPairs entries).map fun e =>
      e.1.text names ++ " => " ++ e.2.text names) ++ "\x7d" := by
  simp only [entryPairs, List.map_map, Function.comp_def, text_toValue]
  simp only [text, shape, Shape.display, entryShapes_eq_map, Shape.displayEntries_eq_map,
    List.map_map, Function.comp_def]

end Value

/-! ### All ways to enumerate -/

/-- A record as every way to enumerate it shows it. What is read and what is called at any time, in
whatever process, has these very keys and values; only the lists around them are new. -/
structure Value.Enumerates (r : Value) (es : List (Value × Value)) : Prop where
  distinct : (es.map Prod.fst).Pairwise fun j k => (j == k) = false
  keys_eq : r.recordKeys? = some (es.map Prod.fst)
  values_eq : r.recordValues? = some (es.map Prod.snd)
  zip_eq {ks vs : List Value} : r.recordKeys? = some ks → r.recordValues? = some vs → ks.zip vs = es
  keys_slot (p : Process) : ∃ f q, r.member (.capability .recordKeys) p = .ok (.function f) q ∧
    ∀ depth args p', f.call (depth + 1) args p' = .ok (.list p'.next (es.map Prod.fst)) p'.fresh.2
  values_slot (p : Process) : ∃ f q, r.member (.capability .recordValues) p = .ok (.function f) q ∧
    ∀ depth args p', f.call (depth + 1) args p' = .ok (.list p'.next (es.map Prod.snd)) p'.fresh.2
  /-- Each entry in a list of two. -/
  entries_slot (p : Process) : ∃ f q, r.member (.capability .iterator) p = .ok (.function f) q ∧
    ∀ depth args p', ∃ q',
      f.call (depth + 1) args p' = .ok (.list (p'.next + es.length) (numbered p'.next es)) q'

lemma Value.Presents.enumerates {r : Value} {es : List (Value × Value)} (h : r.Presents es)
    (hd : (es.map Prod.fst).Pairwise fun j k => (j == k) = false) : r.Enumerates es where
  distinct := hd
  keys_eq := h.recordKeys?_eq
  values_eq := h.recordValues?_eq
  zip_eq hk hv := by
    rw [h.recordKeys?_eq] at hk
    rw [h.recordValues?_eq] at hv
    cases hk
    cases hv
    simpa using List.zip_unzip es
  keys_slot p := by
    refine ⟨_, _, h.member_slot rfl p, fun depth args p' => ?_⟩
    rw [call_builtin rfl]
    exact h.run_keys args p'
  values_slot p := by
    refine ⟨_, _, h.member_slot rfl p, fun depth args p' => ?_⟩
    rw [call_builtin rfl]
    exact h.run_values args p'
  entries_slot p := by
    refine ⟨_, _, h.member_slot rfl p, fun depth args p' =>
      ⟨{ p' with next := p'.next + es.length + 1 }, ?_⟩⟩
    rw [call_builtin rfl]
    exact h.run_entries args p'

/-- The same for what only an object offers. -/
structure Value.EnumeratesMembers (id : Ident) (members : List (String × Value)) : Prop where
  keys_eq : Record.keys members = (memberPairs members).map Prod.fst
  values_eq : Record.values members = (memberPairs members).map Prod.snd
  text_eq (names : Keyword → String) : (object id members).text names =
    "\x7b" ++ Text.joined ((memberPairs members).map fun e =>
      e.1.text names ++ ": " ++ e.2.text names) ++ "\x7d"
  /-- A pass gives the members one after the other and then nothing. -/
  steps_eq (n : Nat) : ((Cursor.start members).steps n).1.map Prod.fst =
    (List.range n).map fun j => members[j]?
  entries_eq (p : Process) : ∃ q, (newEntries members : Act Fault Value) p =
    .ok (.list (p.next + members.length) (numbered p.next (memberPairs members))) q
  counts_eq {regs : Registers} {e : Expr} {p q : Process} (keys : List String) :
    e.eval regs p = .ok (object id members) q → (Observe.object e keys).run regs p =
      .ok (.object (memberPairs members).length (memberPairs members).isEmpty
        (keys.map fun k => decide (k ∈ Entries.keys members))) q
  get?_eq_some_iff (k : String) (v : Value) :
    Entries.get? k members = some v ↔ (.str k, v) ∈ memberPairs members
  contains_iff (k : String) :
    Entries.contains k members ↔ .str k ∈ (memberPairs members).map Prod.fst

/-- And for what only a map offers. -/
structure Value.EnumeratesEntries (id : Ident) (entries : List (MapKey Keyword × Value)) :
    Prop where
  keys_eq : Record.keys entries = (entryPairs entries).map Prod.fst
  values_eq : Record.values entries = (entryPairs entries).map Prod.snd
  text_eq (names : Keyword → String) : (map id entries).text names =
    "Map \x7b" ++ Text.joined ((entryPairs entries).map fun e =>
      e.1.text names ++ " => " ++ e.2.text names) ++ "\x7d"
  size_eq (p : Process) :
    (map id entries).member (.name "size") p =
      .ok (.int (Int64.ofNat (entryPairs entries).length)) p

namespace Value

variable {id : Ident} {members : List (String × Value)} {entries : List (MapKey Keyword × Value)}

lemma pairwise_memberPairs (h : Entries.Distinct members) :
    ((memberPairs members).map Prod.fst).Pairwise fun j k => (j == k) = false := by
  have hk : (memberPairs members).map Prod.fst = (Entries.keys members).map Value.str := by
    simp [memberPairs, Entries.keys]
  rw [hk, List.pairwise_map]
  exact h.imp fun {j k} hjk => beq_eq_false_iff_ne.2 hjk

lemma pairwise_entryPairs (h : Entries.Distinct entries) :
    ((entryPairs entries).map Prod.fst).Pairwise fun j k => (j == k) = false := by
  have hk : (entryPairs entries).map Prod.fst = (Entries.keys entries).map MapKey.toValue := by
    simp [entryPairs, Entries.keys]
  rw [hk, List.pairwise_map]
  exact h.imp fun {j k} hjk => (beq_toValue j k).trans (beq_eq_false_iff_ne.2 hjk)

lemma mem_memberPairs {k : String} {v : Value} :
    (.str k, v) ∈ memberPairs members ↔ (k, v) ∈ members := by
  simp [memberPairs]

lemma enumeratesMembers (h : Entries.Distinct members) : EnumeratesMembers id members where
  keys_eq := by simp [Record.keys, ToValue.toValue, memberPairs]
  values_eq := by simp [Record.values, ToValue.toValue, memberPairs]
  text_eq names := text_object names id members
  steps_eq n := Cursor.fst_steps n _
  entries_eq p := ⟨_, newEntries_apply members p⟩
  counts_eq keys he := by
    have hc : (keys.map fun k => Entries.contains k members) =
        keys.map fun k => decide (k ∈ Entries.keys members) :=
      List.map_congr_left fun k _ => by
        rw [Bool.eq_iff_iff, Entries.contains_iff, decide_eq_true_iff]
    simp only [Observe.run, Act.bind_apply, he, membersOf, Act.pure_apply, hc, memberPairs,
      List.length_map, List.isEmpty_map]
  get?_eq_some_iff k v := by rw [mem_memberPairs, Entries.get?_eq_some_iff h]
  contains_iff k := by
    rw [Entries.contains_iff]
    simp [memberPairs, Entries.keys]

lemma enumeratesEntries : EnumeratesEntries id entries where
  keys_eq := by simp [Record.keys, ToValue.toValue, entryPairs]
  values_eq := by simp [Record.values, ToValue.toValue, entryPairs]
  text_eq names := text_map names id entries
  size_eq p := by
    rw [member_of_present rfl]
    simp [stored?, entryPairs, settle, ofCount]

end Value

namespace Script

/-! ### Where records come from -/

variable {regs : Registers} {p q : Process}

namespace Expr

lemma eval_object_ofList {es : List (String × Expr)} {pairs : List (String × Value)}
    (h : evalMembers regs es p = .ok pairs q) :
    (object es).eval regs p = .ok (.object q.next (Entries.ofList pairs)) q.fresh.2 := by
  simp only [eval, Act.bind_apply, h]
  rfl

lemma eval_map_ofList {es : List (Expr × Expr)} {pairs : List (MapKey Keyword × Value)}
    (h : evalEntries regs es p = .ok pairs q) :
    (map es).eval regs p = .ok (.map q.next (Entries.ofList pairs)) q.fresh.2 := by
  simp only [eval, Act.bind_apply, h]
  rfl

/-- Members stand in the order in which their keys were first given. -/
lemma eval_object {es : List (String × Expr)} {pairs : List (String × Value)}
    (h : evalMembers regs es p = .ok pairs q) :
    ∃ members, (object es).eval regs p = .ok (.object q.next members) q.fresh.2 ∧
      Entries.keys members = (Entries.keys pairs).eraseDups :=
  ⟨_, eval_object_ofList h, Entries.keys_ofList pairs⟩

lemma eval_map {es : List (Expr × Expr)} {pairs : List (MapKey Keyword × Value)}
    (h : evalEntries regs es p = .ok pairs q) :
    ∃ entries, (map es).eval regs p = .ok (.map q.next entries) q.fresh.2 ∧
      Entries.keys entries = (Entries.keys pairs).eraseDups :=
  ⟨_, eval_map_ofList h, Entries.keys_ofList pairs⟩

end Expr

namespace Session

/-- **Enumerations agree**, in every state that a script can reach, and records stand in the order
in which their keys were first given. -/
theorem enumerations_agree (depth : Nat) (cs : List Command) :
    (∀ r es, (initial.run depth cs).2.Holds r → r.Presents es → r.Enumerates es) ∧
    (∀ id members, (initial.run depth cs).2.Holds (.object id members) →
      Value.EnumeratesMembers id members) ∧
    (∀ id entries, (initial.run depth cs).2.Holds (.map id entries) →
      Value.EnumeratesEntries id entries) ∧
    (∀ v : Value, (∀ es, ¬ v.Presents es) → v.recordKeys? = none ∧ v.recordValues? = none) ∧
    (∀ regs es p pairs q, Expr.evalMembers regs es p = .ok pairs q →
      ∃ members, (Expr.object es).eval regs p = .ok (.object q.next members) q.fresh.2 ∧
        Entries.keys members = (Entries.keys pairs).eraseDups) ∧
    (∀ regs es p pairs q, Expr.evalEntries regs es p = .ok pairs q →
      ∃ entries, (Expr.map es).eval regs p = .ok (.map q.next entries) q.fresh.2 ∧
        Entries.keys entries = (Entries.keys pairs).eraseDups) := by
  obtain ⟨L, -, ha⟩ := exists_ledger depth cs
  generalize (initial.run depth cs).2 = s at ha ⊢
  -- what the ledger has under an identity has each key once
  have hm {id members} (h : s.Holds (.object id members)) : Entries.Distinct members := by
    cases ha _ h with
    | object ht => exact (Ledger.pairing.tie_valid ht).1
  have he {id entries} (h : s.Holds (.map id entries)) : Entries.Distinct entries := by
    cases ha _ h with
    | map ht => exact (Ledger.pairing.tie_valid ht).1
  refine ⟨fun r es hr hp => ?_, fun id members hr => Value.enumeratesMembers (hm hr),
    fun id entries _ => Value.enumeratesEntries, fun v => Value.record?_eq_none,
    fun _ _ _ _ _ => Expr.eval_object, fun _ _ _ _ _ => Expr.eval_map⟩
  cases hp with
  | object id members =>
    exact (Value.Presents.object id members).enumerates (Value.pairwise_memberPairs (hm hr))
  | map id entries =>
    exact (Value.Presents.map id entries).enumerates (Value.pairwise_entryPairs (he hr))

end Session

end Script

end ObjectModel
