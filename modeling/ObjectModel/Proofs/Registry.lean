import Mathlib
import ObjectModel.Process

/-!
The registry as it grows. A keyword holds its name in every later registry, and a registered name
is looked up under the one keyword that holds it.
-/

namespace ObjectModel

namespace Registry

variable {r r' : Registry} {name other : String} {j k : Keyword}

/-- A later registry has the names of an earlier one in the same places. -/
instance : Preorder Registry where
  le r r' := r.names <+: r'.names
  le_refl _ := List.prefix_rfl
  le_trans _ _ _ := List.IsPrefix.trans

lemma le_iff : r ≤ r' ↔ r.names <+: r'.names := Iff.rfl

/-- `k` is the keyword of `name`. -/
def Holds (r : Registry) (k : Keyword) (name : String) : Prop := r.names[k.index]? = some name

lemma Holds.mono (hr : r ≤ r') (h : r.Holds k name) : r'.Holds k name := by
  obtain ⟨rest, hr⟩ := hr
  unfold Holds at h ⊢
  rw [← hr, List.getElem?_append_left (List.getElem?_eq_some_iff.1 h).1, h]

lemma Holds.nameOf_eq (h : r.Holds k name) : r.nameOf k = name := by
  unfold Holds at h
  rw [nameOf, List.getD_eq_getElem?_getD, h, Option.getD_some]

lemma Holds.mem (h : r.Holds k name) : name ∈ r.names := List.mem_of_getElem? h

/-- One keyword for each name, and one name for each keyword. -/
lemma Holds.eq_iff (hj : r.Holds j name) (hk : r.Holds k other) : j = k ↔ name = other := by
  unfold Holds at hj hk
  constructor
  · rintro rfl
    exact Option.some_inj.1 (hj.symm.trans hk)
  · rintro rfl
    obtain ⟨hj', hj⟩ := List.getElem?_eq_some_iff.1 hj
    obtain ⟨hk', hk⟩ := List.getElem?_eq_some_iff.1 hk
    have hi := (r.nodup.getElem_inj_iff).1 (hj.trans hk.symm)
    cases j; cases k
    exact congrArg Keyword.mk hi

lemma find?_eq_some : r.find? name = some k ↔ r.Holds k name := by
  have hf {j : Keyword} (h : r.find? name = some j) : r.Holds j name := by
    obtain ⟨i, hi, rfl⟩ := Option.map_eq_some_iff.1 h
    obtain ⟨hlt, he, -⟩ := List.findIdx?_eq_some_iff_getElem.1 hi
    exact List.getElem?_eq_some_iff.2 ⟨hlt, by simpa using he⟩
  refine ⟨hf, fun h => ?_⟩
  cases hn : r.find? name with
  | none => exact absurd h.mem (find?_eq_none.1 hn)
  | some j => rw [((hf hn).eq_iff h).2 rfl]

lemma le_intern (r : Registry) (name : String) : r ≤ (r.intern name).2 := by
  rw [le_iff, names_intern]
  split
  · exact List.prefix_rfl
  · exact List.prefix_append _ _

lemma holds_intern (r : Registry) (name : String) :
    (r.intern name).2.Holds (r.intern name).1 name := by
  unfold intern
  split
  · next k h => exact find?_eq_some.1 h
  · next h =>
    unfold Holds
    rw [names_add]
    exact List.getElem?_concat_length

/-- Looking a name up finds the keyword that asking for it would give. -/
lemma find?_eq (r : Registry) (name : String) :
    r.find? name = if name ∈ r.names then some (r.intern name).1 else none := by
  by_cases h : name ∈ r.names
  · rw [if_pos h, find?_eq_some]
    have hn := r.holds_intern name
    unfold Holds at hn ⊢
    rwa [names_intern, if_pos h] at hn
  · rw [if_neg h, find?_eq_none.2 h]

/-- The registry after names have been asked for, one after the other. -/
def register (r : Registry) (names : List String) : Registry :=
  names.foldl (fun r name => (r.intern name).2) r

@[simp] lemma register_nil (r : Registry) : r.register [] = r := rfl
lemma register_cons (r : Registry) (name : String) (names : List String) :
    r.register (name :: names) = (r.intern name).2.register names := rfl
lemma register_append (r : Registry) (xs ys : List String) :
    r.register (xs ++ ys) = (r.register xs).register ys := by
  unfold register
  rw [List.foldl_append]

lemma le_register (r : Registry) (names : List String) : r ≤ r.register names := by
  induction names generalizing r with
  | nil => exact le_rfl
  | cons name names ih => exact (r.le_intern name).trans (ih _)

lemma mem_register (r : Registry) (names : List String) (name : String) :
    name ∈ (r.register names).names ↔ name ∈ r.names ∨ name ∈ names := by
  induction names generalizing r with
  | nil => simp
  | cons other names ih =>
    rw [register_cons, ih, names_intern]
    by_cases h : other ∈ r.names
    · rw [if_pos h, List.mem_cons]
      constructor
      · exact Or.imp_right .inr
      · rintro (hn | rfl | hn)
        exacts [.inl hn, .inl h, .inr hn]
    · rw [if_neg h, List.mem_append, List.mem_singleton, List.mem_cons, or_assoc]

lemma mem_register_empty (names : List String) (name : String) :
    name ∈ (empty.register names).names ↔ name ∈ names := by
  rw [mem_register, names_empty]
  exact or_iff_right List.not_mem_nil

lemma size_register_empty (names : List String) :
    (empty.register names).size = names.toFinset.card := by
  rw [size, ← List.toFinset_card_of_nodup (empty.register names).nodup]
  congr 1
  ext name
  rw [List.mem_toFinset, List.mem_toFinset, mem_register_empty]

lemma size_mono (h : r ≤ r') : r.size ≤ r'.size := h.length_le

end Registry

namespace Process

/-! Registering a name in a process is registering it in its registry. -/

lemma intern_fst (p : Process) (name : String) :
    (p.intern name).1 = (p.registry.intern name).1 := by
  unfold intern Registry.intern
  split <;> split <;> simp_all

lemma registry_intern (p : Process) (name : String) :
    (p.intern name).2.registry = (p.registry.intern name).2 := by
  unfold intern
  split
  · next k h =>
    unfold Registry.intern
    split <;> simp_all
  · rfl

lemma next_intern (p : Process) (name : String) : (p.intern name).2.next = p.next := by
  unfold intern
  split <;> rfl

lemma holds_intern (p : Process) (name : String) :
    (p.intern name).2.registry.Holds (p.intern name).1 name := by
  rw [registry_intern, intern_fst]
  exact p.registry.holds_intern name

lemma registry_subscribe (p : Process) (l : Level) (ansi : Bool) :
    (p.subscribe l ansi).registry = p.registry := by
  unfold subscribe
  split <;> rfl

lemma next_subscribe (p : Process) (l : Level) (ansi : Bool) :
    (p.subscribe l ansi).next = p.next := by
  unfold subscribe
  split <;> rfl

end Process

end ObjectModel
