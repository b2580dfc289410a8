/-!
Keywords and the registry that hands them out.

A keyword is a number; its name is held by the registry, which only grows. A name has one number
for as long as the registry lives, whatever is registered after it.
-/

namespace ObjectModel

/-- A registered name by its place in the registry. -/
structure Keyword where
  index : Nat
deriving DecidableEq, Inhabited

/-- The registered names, first the oldest. -/
structure Registry where
  names : List String
  nodup : names.Nodup

namespace Registry

def empty : Registry := ⟨[], List.nodup_nil⟩

instance : Inhabited Registry := ⟨empty⟩

def size (r : Registry) : Nat := r.names.length

def find? (r : Registry) (name : String) : Option Keyword :=
  (r.names.idxOf? name).map Keyword.mk

def nameOf (r : Registry) (k : Keyword) : String := r.names.getD k.index ""

/-- Registers a name that is new. -/
def add (r : Registry) (name : String) (h : name ∉ r.names) : Registry where
  names := r.names ++ [name]
  nodup := by
    refine List.nodup_append.2 ⟨r.nodup, by simp, fun a ha b hb => ?_⟩
    rw [List.mem_singleton] at hb
    rintro rfl
    exact h (hb ▸ ha)

theorem find?_eq_none {r : Registry} {name : String} :
    r.find? name = none ↔ name ∉ r.names := by
  simp [find?, List.idxOf?_eq_none_iff]

/-- The keyword of a name, with the registry in which it is registered. -/
def intern (r : Registry) (name : String) : Keyword × Registry :=
  match h : r.find? name with
  | some k => (k, r)
  | none => (⟨r.size⟩, r.add name (find?_eq_none.1 h))

@[simp] theorem names_empty : empty.names = [] := rfl
@[simp] theorem names_add (r : Registry) (name : String) (h : name ∉ r.names) :
    (r.add name h).names = r.names ++ [name] := rfl

theorem names_intern (r : Registry) (name : String) :
    (r.intern name).2.names = if name ∈ r.names then r.names else r.names ++ [name] := by
  unfold intern
  split
  · next k h =>
    have : name ∈ r.names := by
      by_cases hm : name ∈ r.names
      · exact hm
      · rw [find?_eq_none.2 hm] at h; cases h
    simp [this]
  · next h => simp [find?_eq_none.1 h]

end Registry

end ObjectModel
