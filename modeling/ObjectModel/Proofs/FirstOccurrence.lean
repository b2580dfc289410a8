import Mathlib
import ObjectModel.Entries

/-!
The order of first occurrence, in which entries and registered names stand. Main statement: entries
made from pairs have the keys of the pairs in that order (`Entries.keys_ofList`).
-/

namespace ObjectModel

variable {α : Type} [DecidableEq α] {xs ys : List α}

/-- What of `ys` is not in `xs`, each of it once, in the order of first occurrence. -/
def newcomers (xs ys : List α) : List α := (ys.filter fun y => y ∉ xs).eraseDups

@[simp] lemma newcomers_nil (xs : List α) : newcomers xs [] = [] := rfl

lemma nil_newcomers (ys : List α) : newcomers [] ys = ys.eraseDups := by simp [newcomers]

lemma newcomers_eq_nil (h : ∀ y ∈ ys, y ∈ xs) : newcomers xs ys = [] := by
  have hf : (ys.filter fun y => y ∉ xs) = [] :=
    List.filter_eq_nil_iff.2 fun y hy => by simpa using h y hy
  rw [newcomers, hf, List.eraseDups_nil]

lemma newcomers_singleton (xs : List α) (y : α) :
    newcomers xs [y] = if y ∈ xs then [] else [y] := by
  by_cases h : y ∈ xs <;> simp [newcomers, h, List.eraseDups_cons]

lemma append_newcomers_singleton (xs : List α) (y : α) :
    xs ++ newcomers xs [y] = if y ∈ xs then xs else xs ++ [y] := by
  rw [newcomers_singleton]
  split
  · rw [List.append_nil]
  · rfl

lemma newcomers_cons (xs : List α) (y : α) (ys : List α) :
    newcomers xs (y :: ys) = newcomers xs [y] ++ newcomers (xs ++ newcomers xs [y]) ys := by
  rw [append_newcomers_singleton, newcomers_singleton]
  by_cases h : y ∈ xs
  · simp [newcomers, h]
  · -- when it has come, `y` is left out as known and not as a repetition
    have hf : (ys.filter fun z => z ∉ xs ++ [y]) =
        (ys.filter fun z => z ∉ xs).filter fun z => !z == y := by
      rw [List.filter_filter]
      refine List.filter_congr fun z _ => ?_
      by_cases hz : z = y <;> simp [hz]
    simp only [newcomers, h, if_false, hf]
    simp [h, List.eraseDups_cons]

namespace Entries

variable {κ ν : Type} [DecidableEq κ]

lemma keys_insertAll (es pairs : List (κ × ν)) :
    keys (insertAll es pairs) = keys es ++ newcomers (keys es) (keys pairs) := by
  induction pairs generalizing es with
  | nil => exact (List.append_nil _).symm
  | cons p pairs ih =>
    have hk : keys (insert p.1 p.2 es) = keys es ++ newcomers (keys es) [p.1] := by
      rw [keys_insert, append_newcomers_singleton]
    have hp : keys (p :: pairs) = p.1 :: keys pairs := rfl
    rw [insertAll_cons, ih, hk, hp, List.append_assoc, ← newcomers_cons]

lemma keys_ofList (pairs : List (κ × ν)) : keys (ofList pairs) = (keys pairs).eraseDups := by
  rw [ofList, keys_insertAll, ← nil_newcomers]
  rfl

lemma get?_eq_some_iff {es : List (κ × ν)} (h : Distinct es) {k : κ} {v : ν} :
    get? k es = some v ↔ (k, v) ∈ es := by
  induction es with
  | nil => simp
  | cons e es ih =>
    obtain ⟨j, w⟩ := e
    obtain ⟨hj, h⟩ := List.nodup_cons.1 h
    by_cases hk : j = k
    · subst hk
      have hn : (j, v) ∉ es := fun hm => hj (List.mem_map.2 ⟨_, hm, rfl⟩)
      simp [get?, hn, eq_comm]
    · have hn : (k, v) ≠ (j, w) := fun he => hk (congrArg Prod.fst he).symm
      simp [get?, hk, hn, ih h]

lemma contains_iff {es : List (κ × ν)} {k : κ} : contains k es ↔ k ∈ keys es := by
  simp [contains, keys]

/-! ### Values -/

variable {k : κ} {v : ν} {es : List (κ × ν)}

lemma mem_values_of_get? (h : get? k es = some v) : v ∈ values es := by
  induction es with
  | nil => cases h
  | cons e es ih =>
    obtain ⟨k', u⟩ := e
    rw [get?] at h
    split_ifs at h
    · cases h
      exact List.mem_cons_self
    · exact List.mem_cons_of_mem _ (ih h)

lemma mem_values_insert {u : ν} (h : u ∈ values (insert k v es)) : u = v ∨ u ∈ values es := by
  induction es with
  | nil => exact .inl (List.mem_singleton.1 h)
  | cons e es ih =>
    obtain ⟨k', w⟩ := e
    rw [insert] at h
    split_ifs at h
    · exact (List.mem_cons.1 h).imp_right (List.mem_cons_of_mem _)
    · obtain rfl | h := List.mem_cons.1 h
      · exact .inr List.mem_cons_self
      · exact (ih h).imp_right (List.mem_cons_of_mem _)

lemma mem_values_ofList {pairs : List (κ × ν)} (h : v ∈ values (ofList pairs)) :
    v ∈ values pairs := by
  suffices hs : ∀ es, v ∈ values (insertAll es pairs) → v ∈ values es ∨ v ∈ values pairs from
    (hs [] h).resolve_left List.not_mem_nil
  clear h
  induction pairs with
  | nil => exact fun _ h => .inl h
  | cons p pairs ih =>
    intro es h
    obtain h | h := ih _ h
    · obtain rfl | h := mem_values_insert h
      · exact .inr List.mem_cons_self
      · exact .inl h
    · exact .inr (List.mem_cons_of_mem _ h)

end Entries

end ObjectModel
