import Mathlib
import ObjectModel.Proofs.Renumbering

/-!
Two runs of one script, each from a process of its own on. What was made before them may be tied in
any way that is one-to-one; what they make themselves is tied in the order in which it is made, and
keywords by their names (`Process.since`).
-/

namespace ObjectModel

open Relator

/-! ### Ties -/

/-- `n` identities that are given out one after the other, from `a` on in one run and from `b` on in
the other. -/
def Block (a b n : Nat) : Tie := fun (i : Nat) c (j : Nat) d =>
  c.Valid ∧ d.Valid ∧ ∃ k < n, i = a + k ∧ j = b + k

/-- The tie joins what there is before `a` in one run to what there is before `b` in the other. -/
structure Tie.Before (T : Tie) (a b : Nat) : Prop where
  valid {i c j d} : T i c j d → c.Valid ∧ d.Valid
  lt {i j : Nat} : T.ids i j → i < a ∧ j < b
  biUnique : BiUnique T.ids

section Ties

variable {T S : Tie} {a b n m i j : Nat}

lemma lt_of_block (h : (Block a b n).ids i j) : a ≤ i ∧ i < a + n ∧ b ≤ j ∧ j < b + n := by
  obtain ⟨c, d, -, -, k, hk, rfl, rfl⟩ := h
  omega

lemma biUnique_block : BiUnique (Block a b n).ids := by
  constructor
  · rintro i i' j ⟨c, d, -, -, k, -, rfl, hk⟩ ⟨c', d', -, -, k', -, rfl, hk'⟩
    rw [Nat.add_left_cancel (hk.symm.trans hk')]
  · rintro i j j' ⟨c, d, -, -, k, -, hk, rfl⟩ ⟨c', d', -, -, k', -, hk', rfl⟩
    rw [Nat.add_left_cancel (hk.symm.trans hk')]

lemma block_mono (h : n ≤ m) : Block a b n ≤ Block a b m := by
  rintro i c j d ⟨hc, hd, k, hk, he⟩
  exact ⟨hc, hd, k, lt_of_lt_of_le hk h, he⟩

lemma ids_sup (h : (T ⊔ S).ids i j) : T.ids i j ∨ S.ids i j := by
  obtain ⟨c, d, h | h⟩ := h
  · exact .inl ⟨c, d, h⟩
  · exact .inr ⟨c, d, h⟩

/-- Ties that have no identity in common are one-to-one together. -/
lemma biUnique_sup (hT : BiUnique T.ids) (hS : BiUnique S.ids)
    (h : ∀ {i j i' j' : Nat}, T.ids i j → S.ids i' j' → i ≠ i' ∧ j ≠ j') :
    BiUnique (T ⊔ S).ids := by
  constructor
  · intro i i' j hi hi'
    rcases ids_sup hi with hi | hi <;> rcases ids_sup hi' with hi' | hi'
    · exact hT.1 hi hi'
    · exact absurd rfl (h hi hi').2
    · exact absurd rfl (h hi' hi).2
    · exact hS.1 hi hi'
  · intro i j j' hj hj'
    rcases ids_sup hj with hj | hj <;> rcases ids_sup hj' with hj' | hj'
    · exact hT.2 hj hj'
    · exact absurd rfl (h hj hj').1
    · exact absurd rfl (h hj' hj).1
    · exact hS.2 hj hj'

lemma Tie.Before.biUnique_sup_block (h : T.Before a b) (n : Nat) :
    BiUnique (T ⊔ Block a b n).ids := by
  refine biUnique_sup h.biUnique biUnique_block fun hT hB => ?_
  have hlt := h.lt hT
  have hle := lt_of_block hB
  omega

lemma Tie.before_block {a' b' : Nat} (ha : a + n ≤ a') (hb : b + n ≤ b') :
    (Block a b n).Before a' b' where
  valid h := ⟨h.1, h.2.1⟩
  lt h := ⟨(lt_of_block h).2.1.trans_le ha, (lt_of_block h).2.2.2.trans_le hb⟩
  biUnique := biUnique_block

lemma Tie.before_bot : (⊥ : Tie).Before a b where
  valid h := h.elim
  lt := fun ⟨_, _, h⟩ => h.elim
  biUnique := ⟨fun _ _ _ ⟨_, _, h⟩ => h.elim, fun _ _ _ ⟨_, _, h⟩ => h.elim⟩

end Ties

/-! ### Going on from a process -/

/-- How many identities a run has given out, and which names it has asked for in turn. -/
structure Progress where
  given : Nat
  asked : List String

namespace Progress

instance : Preorder Progress where
  le u w := u.given ≤ w.given ∧ u.asked <+: w.asked
  le_refl _ := ⟨le_rfl, List.prefix_rfl⟩
  le_trans _ _ _ h h' := ⟨h.1.trans h'.1, h.2.trans h'.2⟩

def none : Progress := ⟨0, []⟩

/-- The progress that leads from `p` to `q`. -/
structure Leads (w : Progress) (p q : Process) : Prop where
  next_eq : q.next = p.next + w.given
  registry_eq : q.registry = p.registry.register w.asked

variable {w : Progress} {p q : Process}

lemma Leads.registry_le (h : w.Leads p q) : p.registry ≤ q.registry := by
  rw [h.registry_eq]
  exact p.registry.le_register w.asked

lemma leads_none (p : Process) : none.Leads p p := ⟨rfl, rfl⟩

lemma Leads.fresh (h : w.Leads p q) : Leads ⟨w.given + 1, w.asked⟩ p q.fresh.2 where
  next_eq := congrArg Nat.succ h.next_eq
  registry_eq := h.registry_eq

lemma Leads.intern (h : w.Leads p q) (name : String) :
    Leads ⟨w.given, w.asked ++ [name]⟩ p (q.intern name).2 where
  next_eq := (q.next_intern name).trans h.next_eq
  registry_eq := by
    rw [q.registry_intern, h.registry_eq, Registry.register_append]
    rfl

lemma Leads.subscribe (h : w.Leads p q) (l : Level) (ansi : Bool) :
    w.Leads p (q.subscribe l ansi) where
  next_eq := (q.next_subscribe l ansi).trans h.next_eq
  registry_eq := (q.registry_subscribe l ansi).trans h.registry_eq

lemma Leads.emit (h : w.Leads p q) (e : Event) : w.Leads p (q.emit e) := ⟨h.next_eq, h.registry_eq⟩

end Progress

namespace Registry

/-- What a registry becomes keeps its names where they are, so namesakes stay namesakes. -/
lemma Namesakes.mono {r r' s s' : Registry} {j k : Keyword} (hr : r ≤ s) (hr' : r' ≤ s')
    (h : r.Namesakes r' j k) : s.Namesakes s' j k := by
  obtain ⟨name, hj, hk⟩ := h
  exact ⟨name, hj.mono hr, hk.mono hr'⟩

lemma register_mono (r : Registry) {xs ys : List String} (h : xs <+: ys) :
    r.register xs ≤ r.register ys := by
  obtain ⟨zs, rfl⟩ := h
  rw [register_append]
  exact le_register _ zs

end Registry

/-- Two runs that go on from `p₀` and from `q₀`, of which it is known what stands for what. -/
def Process.since (p₀ q₀ : Process) {T : Tie} (hT : T.Before p₀.next q₀.next) :
    Pairing Progress where
  Joins w p q := w.Leads p₀ p ∧ w.Leads q₀ q
  tie w := T ⊔ Block p₀.next q₀.next w.given
  keyword w := (p₀.registry.register w.asked).Namesakes (q₀.registry.register w.asked)
  tie_mono := by
    rintro u w h i c j d (ht | ht)
    · exact .inl ht
    · exact .inr (block_mono h.1 i c j d ht)
  keyword_mono h := .mono (Registry.register_mono _ h.2) (Registry.register_mono _ h.2)
  tie_valid h := h.elim hT.valid fun h => ⟨h.1, h.2.1⟩
  biUnique_tie w := hT.biUnique_sup_block w.given
  biUnique_keyword _ := Registry.biUnique_namesakes
  nameOf_eq := by
    rintro w p q j k ⟨hp, hq⟩ ⟨name, hj, hk⟩
    rw [hp.registry_eq, hq.registry_eq, hj.nameOf_eq, hk.nameOf_eq]
  fresh := by
    rintro w p q c d ⟨hp, hq⟩ hc hd -
    refine ⟨⟨w.given + 1, w.asked⟩, ⟨Nat.le_succ _, List.prefix_rfl⟩, ⟨hp.fresh, hq.fresh⟩, ?_⟩
    exact .inr ⟨hc, hd, w.given, Nat.lt_succ_self _, hp.next_eq, hq.next_eq⟩
  intern := by
    rintro w p q name ⟨hp, hq⟩
    have hp' := hp.intern name
    have hq' := hq.intern name
    refine ⟨⟨w.given, w.asked ++ [name]⟩, ⟨le_rfl, List.prefix_append _ _⟩, ⟨hp', hq'⟩, name,
      ?_, ?_⟩
    · rw [← hp'.registry_eq]
      exact p.holds_intern name
    · rw [← hq'.registry_eq]
      exact q.holds_intern name
  nilLookup _ h := ⟨h.1.emit _, h.2.emit _⟩
  subscribe l ansi h := ⟨h.1.subscribe l ansi, h.2.subscribe l ansi⟩
  initialized _ h := ⟨h.1.emit _, h.2.emit _⟩

end ObjectModel
