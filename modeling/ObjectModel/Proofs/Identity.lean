import Mathlib
import ObjectModel.Proofs.Asking.Script
import ObjectModel.Proofs.Equality
import ObjectModel.Proofs.Pairing.Session
import ObjectModel.Proofs.Reading
import ObjectModel.Value.Parts

/-!
Identities over whole runs. A run keeps a ledger of what was made under each identity, and whatever
it holds is as the ledger has it; so values that are equal are the same throughout, though equality
looks at no more than an identity. Main statement: `Script.Session.run_coherent`.
-/

namespace ObjectModel

open List (Forall₂)
open Relator
open Script

/-! ### Reading and making -/

namespace Value

/-- The same kind and the same shape, or the same error. -/
inductive LookAlike : EStateM.Result LookupError Process Value →
    EStateM.Result LookupError Process Value → Prop where
  | error (e : LookupError) (p q : Process) : LookAlike (.error e p) (.error e q)
  | ok {v u : Value} (hk : v.kind = u.kind) (hs : ∀ names, v.shape names = u.shape names)
      (p q : Process) : LookAlike (.ok v p) (.ok u q)

/-- Reading a member twice gives the same but for the identity of a binding. -/
lemma lookAlike_member (v : Value) (key : MemberKey) {p q : Process}
    (h : q.registry = p.registry) : LookAlike (v.member key p) (v.member key q) := by
  cases hv : v.isAbsent with
  | true =>
    rw [member_of_absent hv]
    by_cases hk : key = .capability .typeTag
    · subst hk
      exact .ok rfl (fun _ => rfl) p q
    · rw [nilMember_error hk, nilMember_error hk]
      exact .error _ _ _
  | false =>
    rw [member_of_present hv, member_of_present hv, h]
    generalize v.stored? p.registry key = stored
    match stored with
    | none => exact .ok rfl (fun _ => rfl) p q
    | some (.function f) =>
      rw [settle_function, settle_function]
      cases hf : f.receiver with
      | some b => exact .ok rfl (fun _ => rfl) p q
      | none => exact .ok (by rfl) (fun _ => by rfl) _ _
    | some .nil | some .null | some (.bool _) | some (.int _) | some (.float _) | some (.str _)
    | some (.keyword _) | some (.list _ _) | some (.object _ _) | some (.map _ _) =>
      exact .ok rfl (fun _ => rfl) p q

/-- The operations that make a value with an identity of its own. -/
inductive Making : Act LookupError Value → Prop where
  | list (items : List Value) : Making (newList items)
  | object (members : List (String × Value)) : Making (newObject members)
  | map (entries : List (MapKey Keyword × Value)) : Making (newMap entries)
  | native (name : String) (code : Code MemberKey Value) :
      Making (do return .function ⟨name, .native (← Act.fresh) code, none⟩)
  | bind (f : Function) (hf : f.receiver = none) (r : Value) :
      Making (do return .function (← f.bind r))

end Value

/-- What was made, as a value with its identity. -/
def Creation.value (i : Ident) : Creation → Value
  | list items => .list i items
  | object members => .object i members
  | map entries => .map i entries
  | native name code => .function ⟨name, .native i code, none⟩
  | binding name body r => .function ⟨name, body, some (i, r)⟩

namespace Creation

variable {i j : Ident} {v : Value}

@[simp] lemma identity?_value (c : Creation) (i : Ident) : (c.value i).identity? = some i := by
  cases c <;> rfl

/-- Only a value with this identity is equal to what was made under it. -/
lemma identity_of_same {c : Creation} (h : (c.value i).same v) : v.identity? = some i := by
  obtain h | h | ⟨j, hj, hv⟩ | ⟨f, b, hf, hb, hr⟩ := Value.same_cases h
  · rw [← h, identity?_value]
  · cases c <;> cases h
  · rw [hv, ← hj, identity?_value]
  · cases c with
    | native => cases hf; cases hb
    | binding => cases hf; cases hr
    | _ => cases hf

end Creation

lemma Value.Making.apply {act : Act LookupError Value} (h : Making act) :
    ∃ c : Creation, ∀ p, act p = .ok (c.value p.next) p.fresh.2 := by
  cases h with
  | list items => exact ⟨.list items, fun _ => rfl⟩
  | object members => exact ⟨.object members, fun _ => rfl⟩
  | map entries => exact ⟨.map entries, fun _ => rfl⟩
  | native name code => exact ⟨.native name code, fun _ => rfl⟩
  | bind f hf r =>
    refine ⟨.binding f.name f.body r, fun p => ?_⟩
    rw [Act.bind_apply, bind_of_unbound hf]
    rfl

/-! ### Alike and equal -/

namespace Alike

variable {T : Tie} {K : Keyword → Keyword → Prop} {v w : Value}

lemma parts (h : Alike T K v w) : Forall₂ (Alike T K) v.parts w.parts := by
  cases h with
  | list _ hi => exact hi
  | object _ hm => exact Entries.rel_values hm
  | map _ he => exact Entries.rel_values he
  | native _ hc =>
    cases hc with
    | const hv => exact .cons hv .nil
    | _ => exact .nil
  | bound _ hf hr =>
    cases hf with
    | native _ hc =>
      cases hc with
      | const hv => exact .cons hv (.cons hr .nil)
      | _ => exact .cons hr .nil
  | builtin _ hr => exact .cons hr .nil
  | _ => exact .nil

lemma of_within (h : Alike T K w w) (hv : v.Within w) : Alike T K v v := by
  induction hv with
  | refl => exact h
  | part _ hu ih => exact ih (List.forall₂_same.1 h.parts _ hu)

end Alike

lemma Creation.Alike.eq {T : Tie} {K : Keyword → Keyword → Prop}
    (hT : ∀ i c j d, T i c j d → i = j ∧ c = d) (hK : ∀ j k, K j k → j = k) {c d : Creation}
    (h : c.Alike T K d) : c = d := by
  have hv (v u : Value) : ObjectModel.Alike T K v u → v = u := ObjectModel.Alike.eq hT hK
  cases h with
  | list h => rw [eq_of_forall₂ hv h]
  | object h => rw [eq_of_forall₂ (fun _ _ => Pair.Rel.eq (fun _ _ => id) hv) h]
  | map h => rw [eq_of_forall₂ (fun _ _ => Pair.Rel.eq (fun _ _ => MapKey.Rel.eq hK) hv) h]
  | native name h =>
    cases h with
    | const h => rw [hv _ _ h]
    | _ => rfl
  | binding hf hr =>
    cases hv _ _ hf
    rw [hv _ _ hr]
  | builtin b hr => rw [hv _ _ hr]

/-! ### The ledger -/

/-- What was made, first the oldest: the identity of each is its place. -/
structure Ledger where
  made : List Creation

namespace Ledger

variable {L : Ledger} {i : Ident} {a b v : Value}

instance : Preorder Ledger where
  le L L' := L.made <+: L'.made
  le_refl _ := List.prefix_rfl
  le_trans _ _ _ := List.IsPrefix.trans

/-- An identity is tied to itself, what was made under it on both sides. -/
def SelfTie (L : Ledger) : Tie := fun i c j d => i = j ∧ c = d ∧ L.made[i]? = some c ∧ c.Valid

lemma SelfTie.mono {L' : Ledger} (hL : L ≤ L') {i c j d} (h : L.SelfTie i c j d) :
    L'.SelfTie i c j d := by
  obtain ⟨rest, hL⟩ := hL
  obtain ⟨hi, hc, hm, hv⟩ := h
  refine ⟨hi, hc, ?_, hv⟩
  rw [← hL, List.getElem?_append_left (List.getElem?_eq_some_iff.1 hm).1, hm]

lemma SelfTie.eq (i : Ident) (c : Creation) (j : Ident) (d : Creation) (h : L.SelfTie i c j d) :
    i = j ∧ c = d :=
  ⟨h.1, h.2.1⟩

/-- A run beside itself, which has made as much as the ledger says. -/
structure Runs (L : Ledger) (p q : Process) : Prop where
  same : p = q
  next_eq : p.next = L.made.length

def pairing : Pairing Ledger where
  Joins := Runs
  tie := SelfTie
  keyword _ := Eq
  tie_mono := SelfTie.mono
  keyword_mono _ _ _ h := h
  tie_valid h := ⟨h.2.2.2, h.2.1 ▸ h.2.2.2⟩
  biUnique_tie L := by
    constructor
    · rintro i j k ⟨c, d, h, -⟩ ⟨c', d', h', -⟩
      exact h.trans h'.symm
    · rintro i j k ⟨c, d, h, -⟩ ⟨c', d', h', -⟩
      exact h.symm.trans h'
  biUnique_keyword _ := biUnique_eq
  nameOf_eq := by
    rintro L p q j k ⟨rfl, -⟩ rfl
    rfl
  fresh := by
    rintro L p q c d ⟨rfl, hn⟩ hc - h
    -- in one run what is alike is equal, so both sides enter the same
    obtain rfl := Creation.Alike.eq SelfTie.eq (fun _ _ => id) h
    refine ⟨⟨L.made ++ [c]⟩, List.prefix_append _ _, ⟨rfl, ?_⟩, rfl, rfl, ?_, hc⟩
    · rw [List.length_append, ← hn]
      rfl
    · rw [hn]
      exact List.getElem?_concat_length
  intern := by
    rintro L p q name ⟨rfl, hn⟩
    exact ⟨L, le_rfl, ⟨rfl, (p.next_intern name).trans hn⟩, rfl⟩
  nilLookup := by
    rintro L p q key ⟨rfl, hn⟩
    exact ⟨rfl, hn⟩
  subscribe := by
    rintro L p q l ansi ⟨rfl, hn⟩
    exact ⟨rfl, (p.next_subscribe l ansi).trans hn⟩
  initialized := by
    rintro L p q n ⟨rfl, hn⟩
    exact ⟨rfl, hn⟩

/-! ### What a run holds -/

/-- What has an identity is what the ledger has under it. -/
lemma value_of_identity (h : pairing.Alike L v v) (hi : v.identity? = some i) :
    ∃ c, L.made[i]? = some c ∧ v = c.value i := by
  cases h with
  | list ht | object ht | map ht | native ht | bound ht | builtin ht =>
    cases hi
    exact ⟨_, ht.2.2.1, rfl⟩
  | _ => cases hi

lemma eq_of_identity (ha : pairing.Alike L a a) (hb : pairing.Alike L b b)
    (hi : a.identity? = some i) (hj : b.identity? = some i) : a = b := by
  obtain ⟨c, hc, rfl⟩ := value_of_identity ha hi
  obtain ⟨d, hd, rfl⟩ := value_of_identity hb hj
  rw [Option.some_inj.1 (hc.symm.trans hd)]

lemma eq_of_same (ha : pairing.Alike L a a) (hb : pairing.Alike L b b) (hf : a.kind ≠ .float)
    (h : a == b) : a = b := by
  obtain h | h | ⟨i, hi, hj⟩ | ⟨f, c, rfl, hc, hr⟩ := Value.same_cases h
  · exact h
  · exact absurd h hf
  · exact eq_of_identity ha hb hi hj
  · -- a builtin is bound when it is read, so it is never held unbound
    cases ha with
    | native => cases hc
    | bound | builtin => cases hr

end Ledger

namespace Script.Session

/-- The value is in a register or inside a value there. -/
def Holds (s : Session) (v : Value) : Prop := ∃ r ∈ s.registers, v.Within r.2

lemma exists_together (depth : Nat) (cs : List Command) :
    ∃ L, Ledger.pairing.Together L (initial.run depth cs).2 (initial.run depth cs).2 := by
  have h : Ledger.pairing.Together ⟨[]⟩ initial initial := ⟨⟨rfl, rfl⟩, .nil⟩
  obtain ⟨L, -, h, -⟩ := Pairing.session_run depth h cs
  exact ⟨L, h⟩

lemma alike_of_holds {L : Ledger} {s : Session} {v : Value}
    (h : Ledger.pairing.Together L s s) (hv : s.Holds v) : Ledger.pairing.Alike L v v := by
  obtain ⟨⟨name, u⟩, hu, hv⟩ := hv
  obtain ⟨-, ha⟩ := List.forall₂_same.1 h.registers _ hu
  exact ha.of_within hv

lemma exists_ledger (depth : Nat) (cs : List Command) :
    ∃ L : Ledger, (initial.run depth cs).2.process.next = L.made.length ∧
      ∀ v, (initial.run depth cs).2.Holds v → Ledger.pairing.Alike L v v := by
  obtain ⟨L, h⟩ := exists_together depth cs
  exact ⟨L, h.joins.next_eq, fun v => alike_of_holds h⟩

/-- What equality and identity mean among the values of a session. -/
structure Coherent (s : Session) : Prop where
  /-- Equal values, floats apart, are the same throughout, identities inside them included. -/
  beq_iff_eq {a b : Value} : s.Holds a → s.Holds b → a.kind ≠ .float → (a == b ↔ a = b)
  /-- They read alike under every key, one now and the other then or later. -/
  lookAlike {a b : Value} : s.Holds a → s.Holds b → a.kind ≠ .float → a == b →
    ∀ key q, q.registry = s.process.registry →
      Value.LookAlike (a.member key s.process) (b.member key q)
  /-- Values that share an identity are the same, whatever their kinds. -/
  eq_of_identity {a b : Value} {i : Ident} : s.Holds a → s.Holds b → a.identity? = some i →
    b.identity? = some i → a = b
  /-- What is made now is equal to nothing that there was before. -/
  beq_made {act : Act LookupError Value} {v : Value} {p : Process} : Value.Making act →
    act s.process = .ok v p → ∀ a, s.Holds a → (v == a) = false ∧ (a == v) = false
  /-- It is equal to nothing that is made later, whatever happens in between. -/
  beq_made_later {act act' : Act LookupError Value} {v u : Value} {p q : Process} {depth : Nat}
    {regs : Registers} {later : List Command} : Value.Making act → act s.process = .ok v p →
    Value.Making act' → act' ((⟨p, regs⟩ : Session).run depth later).2.process = .ok u q →
    (v == u) = false ∧ (u == v) = false ∧ v.identity? ≠ u.identity?

/-- **Identity coherence over whole runs**, whatever the commands and however deep their calls. -/
theorem run_coherent (depth : Nat) (cs : List Command) : (initial.run depth cs).2.Coherent := by
  obtain ⟨L, hn, ha⟩ := exists_ledger depth cs
  generalize (initial.run depth cs).2 = s at hn ha ⊢
  constructor
  · intro a b hka hkb hf
    refine ⟨Ledger.eq_of_same (ha a hka) (ha b hkb) hf, ?_⟩
    rintro rfl
    exact Value.beq_self hf
  · intro a b hka hkb hf h key q hq
    obtain rfl := Ledger.eq_of_same (ha a hka) (ha b hkb) hf h
    exact Value.lookAlike_member a key hq
  · intro a b i hka hkb
    exact Ledger.eq_of_identity (ha a hka) (ha b hkb)
  · intro act v p hm hv a hka
    obtain ⟨c, hc⟩ := hm.apply
    cases (hc _).symm.trans hv
    -- the next identity has no entry yet
    have hne : (c.value s.process.next == a) = false := by
      by_contra h
      have hi := Creation.identity_of_same (Bool.eq_true_of_not_eq_false h)
      obtain ⟨d, hd, -⟩ := Ledger.value_of_identity (ha a hka) hi
      rw [hn, List.getElem?_eq_none le_rfl] at hd
      cases hd
    exact ⟨hne, (Value.beq_comm _ _).trans hne⟩
  · intro act act' v u p q depth regs later hm hv hm' hu
    obtain ⟨c, hc⟩ := hm.apply
    cases (hc _).symm.trans hv
    obtain ⟨d, hd⟩ := hm'.apply
    cases (hd _).symm.trans hu
    -- identities are only given out, so the later one is greater
    obtain ⟨xs, -, hle, -⟩ := run_asked depth ⟨s.process.fresh.2, regs⟩ later
    generalize ((⟨s.process.fresh.2, regs⟩ : Session).run depth later).2.process.next = j at hle ⊢
    have hi : (c.value s.process.next).identity? ≠ (d.value j).identity? := by
      rw [Creation.identity?_value, Creation.identity?_value]
      intro h
      rw [← Option.some_inj.1 h] at hle
      exact Nat.not_succ_le_self _ hle
    have hne : (c.value s.process.next == d.value j) = false := by
      by_contra h
      have h' := Creation.identity_of_same (Bool.eq_true_of_not_eq_false h)
      exact hi ((Creation.identity?_value _ _).trans h'.symm)
    exact ⟨hne, (Value.beq_comm _ _).trans hne, hi⟩

end Script.Session

end ObjectModel
