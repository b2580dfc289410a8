import Mathlib
import ObjectModel.Proofs.Pairing.Session
import ObjectModel.Proofs.Registry

/-!
Runs of one script from different processes. What has been registered before decides which numbers
the keywords get, and what has been made before which identities, but no answer depends on either.
Main statement: `Script.Session.answers_of_any_registry`.
-/

namespace ObjectModel

open Relator
open Script

variable {r r' : Registry} {j k : Keyword}

/-- Two keywords of one name, each in a registry of its own. -/
def Registry.Namesakes (r r' : Registry) (j k : Keyword) : Prop :=
  ∃ name, r.Holds j name ∧ r'.Holds k name

lemma Registry.biUnique_namesakes : BiUnique (r.Namesakes r') := by
  constructor
  · rintro j j' k ⟨name, hj, hk⟩ ⟨other, hj', hk'⟩
    exact (hj.eq_iff hj').2 ((hk.eq_iff hk').1 rfl)
  · rintro j k k' ⟨name, hj, hk⟩ ⟨other, hj', hk'⟩
    exact (hk.eq_iff hk').2 ((hj.eq_iff hj').1 rfl)

/-- Identities counted from `a` in one run and from `b` in the other. -/
def Shift (a b : Ident) : Tie := fun i c j d => c.Valid ∧ d.Valid ∧ a ≤ i ∧ b ≤ j ∧ i + b = j + a

lemma biUnique_shift (a b : Ident) : BiUnique (Shift a b).ids := by
  constructor
  · rintro i i' j ⟨c, d, -, -, -, -, h⟩ ⟨c', d', -, -, -, -, h'⟩
    exact Nat.add_right_cancel (h.trans h'.symm)
  · rintro i j j' ⟨c, d, -, -, -, -, h⟩ ⟨c', d', -, -, -, -, h'⟩
    exact Nat.add_right_cancel (h.symm.trans h')

/-- Two processes that have given out as many identities since `a` and `b`, with any registries. -/
structure Renumbered (a b : Ident) (w : Registry × Registry) (p q : Process) : Prop where
  left : p.registry = w.1
  right : q.registry = w.2
  left_le : a ≤ p.next
  right_le : b ≤ q.next
  next : p.next + b = q.next + a

/-- The runs go on together, each with the numbers and the identities of its own. -/
def renumbering (a b : Ident) : Pairing (Registry × Registry) where
  Joins := Renumbered a b
  tie _ := Shift a b
  keyword w := w.1.Namesakes w.2
  tie_mono _ _ _ _ _ h := h
  keyword_mono h := fun ⟨name, hj, hk⟩ => ⟨name, hj.mono h.1, hk.mono h.2⟩
  tie_valid h := ⟨h.1, h.2.1⟩
  biUnique_tie _ := biUnique_shift a b
  biUnique_keyword _ := Registry.biUnique_namesakes
  nameOf_eq := by
    rintro w p q j k hj ⟨name, hn, hn'⟩
    rw [hj.left, hj.right, hn.nameOf_eq, hn'.nameOf_eq]
  fresh := by
    rintro w p q c d ⟨hl, hr, ha, hb, hn⟩ hc hd -
    refine ⟨w, le_rfl, ⟨hl, hr, Nat.le_succ_of_le ha, Nat.le_succ_of_le hb, ?_⟩, hc, hd, ha, hb, hn⟩
    change p.next + 1 + b = q.next + 1 + a
    rw [Nat.add_right_comm, hn, Nat.add_right_comm]
  intern := by
    rintro w p q name ⟨hl, hr, ha, hb, hn⟩
    refine ⟨((p.intern name).2.registry, (q.intern name).2.registry), ⟨?_, ?_⟩,
      ⟨rfl, rfl, ?_, ?_, ?_⟩, name, p.holds_intern name, q.holds_intern name⟩
    · rw [p.registry_intern, hl]
      exact Registry.le_intern _ _
    · rw [q.registry_intern, hr]
      exact Registry.le_intern _ _
    all_goals simpa only [Process.next_intern]
  nilLookup _ h := ⟨h.left, h.right, h.left_le, h.right_le, h.next⟩
  subscribe l ansi h := by
    obtain ⟨hl, hr, ha, hb, hn⟩ := h
    constructor
    · rw [Process.registry_subscribe, hl]
    · rw [Process.registry_subscribe, hr]
    all_goals simpa only [Process.next_subscribe]
  initialized _ h := ⟨h.left, h.right, h.left_le, h.right_le, h.next⟩

/-- **Whatever was registered before**, and in whatever order, a script that does not ask for it
has the same answers, errors and calls that go too deep included. -/
theorem Script.Session.answers_of_any_registry (depth : Nat) (cs : List Command)
    (hcs : ∀ c ∈ cs, c.asksRegistry = false) (p q : Process) :
    ((⟨p, []⟩ : Session).run depth cs).1.map Reply.answer =
      ((⟨q, []⟩ : Session).run depth cs).1.map Reply.answer := by
  have h : (renumbering p.next q.next).Together (p.registry, q.registry) ⟨p, []⟩ ⟨q, []⟩ :=
    ⟨⟨rfl, rfl, le_rfl, le_rfl, Nat.add_comm _ _⟩, .nil⟩
  obtain ⟨-, -, -, ha⟩ := Pairing.session_run depth h cs
  exact ha hcs

/-- Makes a map keyed by two keywords and looks one of them up. -/
def Script.keyedLookup : List Command :=
  [.make (.expr (.map [(.keyword "a", .int 1), (.keyword "b", .int 2)])) (some "m") false,
    .make (.member (.register "m") (.name "get")) (some "f") false,
    .make (.call (.register "f") [.keyword "b"]) none false]

/-- Two names in one order, and in the other. -/
def Registry.ab : Registry := ⟨["a", "b"], by decide⟩
def Registry.ba : Registry := ⟨["b", "a"], by decide⟩

theorem Script.Session.answers_of_swapped_names :
    Registry.ab.find? "a" ≠ Registry.ba.find? "a" ∧
      (∀ c ∈ keyedLookup, c.asksRegistry = false) ∧
      ((⟨⟨0, .ab, [], none⟩, []⟩ : Session).run 1 keyedLookup).1.map Reply.answer =
        ((⟨⟨7, .ba, [], none⟩, []⟩ : Session).run 1 keyedLookup).1.map Reply.answer :=
  ⟨by decide, by decide, answers_of_any_registry 1 keyedLookup (by decide) _ _⟩

end ObjectModel
