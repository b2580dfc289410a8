import Mathlib
import ObjectModel.Proofs.Enumeration

/-!
Objects made from pairs. The pairs alone decide the members: a key stands where it occurs first and
has the value of its last pair, wherever in the sequence the two are. Main statement:
`Entries.construction_laws`.
-/

namespace ObjectModel

open Script

section FirstOccurrence

variable {α : Type} [DecidableEq α]

lemma eraseDups_concat (xs : List α) (x : α) :
    (xs ++ [x]).eraseDups = if x ∈ xs then xs.eraseDups else xs.eraseDups ++ [x] := by
  by_cases h : x ∈ xs <;> simp [List.eraseDups_append, List.removeAll, h, List.eraseDups_cons]

lemma eraseDups_filter (p : α → Bool) (xs : List α) :
    (xs.filter p).eraseDups = xs.eraseDups.filter p := by
  induction xs using List.reverseRecOn with
  | nil => rfl
  | append_singleton xs x ih =>
    by_cases hp : p x <;> by_cases hx : x ∈ xs <;> simp [eraseDups_concat, hp, hx, ih]

/-- What comes later in the order of first occurrence has its first occurrence later. -/
lemma pairwise_eraseDups (xs : List α) :
    xs.eraseDups.Pairwise fun x y => xs.idxOf x < xs.idxOf y := by
  induction xs using List.reverseRecOn with
  | nil => exact .nil
  | append_singleton xs x ih =>
    have ih' : xs.eraseDups.Pairwise fun y z => (xs ++ [x]).idxOf y < (xs ++ [x]).idxOf z := by
      refine ih.imp_of_mem fun {y z} hy hz h => ?_
      rw [List.mem_eraseDups] at hy hz
      rwa [List.idxOf_append_of_mem hy, List.idxOf_append_of_mem hz]
    rw [eraseDups_concat]
    split
    · exact ih'
    · next hx =>
      refine List.pairwise_append.2 ⟨ih', List.pairwise_singleton _ _, fun y hy z hz => ?_⟩
      rw [List.mem_eraseDups] at hy
      rw [List.mem_singleton.1 hz, List.idxOf_append_of_mem hy, List.idxOf_append_of_notMem hx]
      have := List.idxOf_lt_length_iff.2 hy
      omega

end FirstOccurrence

namespace Entries

variable {κ ν : Type} [DecidableEq κ] {k : κ} {v : ν} {es fs pairs : List (κ × ν)}

/-! ### Looking up a key -/

lemma get?_eq_none_iff : get? k es = none ↔ k ∉ keys es := by
  induction es with
  | nil => simp [keys]
  | cons e es ih =>
    obtain ⟨j, w⟩ := e
    by_cases hk : j = k
    · simp [get?, keys, hk]
    · simpa [get?, keys, hk, Ne.symm hk] using ih

/-- What is inserted later wins. -/
lemma get?_insertAll (k : κ) (es pairs : List (κ × ν)) :
    get? k (insertAll es pairs) = (get? k (ofList pairs)).or (get? k es) := by
  induction pairs using List.reverseRecOn with
  | nil => rfl
  | append_singleton pairs p ih =>
    rw [ofList, insertAll_append, insertAll_append]
    simp only [insertAll_cons, insertAll_nil, get?_insert]
    split
    · rfl
    · exact ih

lemma mem_keys_ofList : k ∈ keys (ofList pairs) ↔ k ∈ keys pairs := by
  rw [keys_ofList, List.mem_eraseDups]

lemma get?_ofList_last (xs : List (κ × ν)) {ys : List (κ × ν)} (h : k ∉ keys ys) :
    get? k (ofList (xs ++ (k, v) :: ys)) = some v := by
  have hn : get? k (ofList ys) = none := get?_eq_none_iff.2 fun hk => h (mem_keys_ofList.1 hk)
  rw [ofList, insertAll_append, insertAll_cons, get?_insertAll, hn, get?_insert, if_pos rfl]
  rfl

lemma exists_last (h : k ∈ keys pairs) :
    ∃ xs v ys, pairs = xs ++ (k, v) :: ys ∧ k ∉ keys ys := by
  induction pairs with
  | nil => cases h
  | cons p pairs ih =>
    by_cases hk : k ∈ keys pairs
    · obtain ⟨xs, v, ys, rfl, hy⟩ := ih hk
      exact ⟨p :: xs, v, ys, rfl, hy⟩
    · obtain rfl : k = p.1 := (List.mem_cons.1 h).resolve_right hk
      exact ⟨[], p.2, pairs, rfl, hk⟩

/-- Entries with the same keys in the same order and the same values are the same. -/
lemma eq_of_get? (he : Distinct es) (hk : keys es = keys fs) (h : ∀ k, get? k es = get? k fs) :
    es = fs := by
  induction es generalizing fs with
  | nil => exact (List.map_eq_nil_iff.1 hk.symm).symm
  | cons e es ih =>
    obtain ⟨j, w⟩ := e
    rcases fs with _ | ⟨⟨j', w'⟩, fs⟩
    · cases hk
    obtain ⟨rfl, hks⟩ : j = j' ∧ keys es = keys fs := List.cons_eq_cons.1 hk
    obtain ⟨hj, he⟩ : j ∉ keys es ∧ Distinct es := List.nodup_cons.1 he
    have hw : w = w' := by simpa [get?] using h j
    refine congrArg₂ List.cons (congrArg _ hw) (ih he hks fun k => ?_)
    by_cases hjk : j = k
    · subst hjk
      rw [get?_eq_none_iff.2 hj, get?_eq_none_iff.2 (hks ▸ hj)]
    · simpa [get?, hjk] using h k

/-! ### What pairs describe -/

/-- The entries that a sequence of pairs stands for, by where in it a key is first and last. -/
structure Describes (pairs es : List (κ × ν)) : Prop where
  distinct : Distinct es
  mem_keys_iff (k : κ) : k ∈ keys es ↔ k ∈ keys pairs
  first : (keys es).Pairwise fun j k => (keys pairs).idxOf j < (keys pairs).idxOf k
  last (xs : List (κ × ν)) (k : κ) (v : ν) (ys : List (κ × ν)) :
    pairs = xs ++ (k, v) :: ys → k ∉ keys ys → get? k es = some v

lemma describes_ofList (pairs : List (κ × ν)) : Describes pairs (ofList pairs) where
  distinct := distinct_ofList pairs
  mem_keys_iff _ := mem_keys_ofList
  first := by
    rw [keys_ofList]
    exact pairwise_eraseDups _
  last xs k v ys h hk := h ▸ get?_ofList_last xs hk

lemma Describes.unique (he : Describes pairs es) (hf : Describes pairs fs) : es = fs := by
  have hm (k : κ) : k ∈ keys es ↔ k ∈ keys fs := (he.mem_keys_iff k).trans (hf.mem_keys_iff k).symm
  have hp : (keys es).Perm (keys fs) := (List.perm_ext_iff_of_nodup he.distinct hf.distinct).2 hm
  have hk : keys es = keys fs :=
    hp.eq_of_pairwise (fun _ _ _ _ h h' => absurd h h'.not_gt) he.first hf.first
  refine eq_of_get? he.distinct hk fun k => ?_
  by_cases h : k ∈ keys pairs
  · obtain ⟨xs, v, ys, hp, hy⟩ := exists_last h
    rw [he.last xs k v ys hp hy, hf.last xs k v ys hp hy]
  · rw [get?_eq_none_iff.2 fun h' => h ((he.mem_keys_iff k).1 h'),
      get?_eq_none_iff.2 fun h' => h ((hf.mem_keys_iff k).1 h')]

lemma length_ofList (pairs : List (κ × ν)) :
    (ofList pairs).length = (keys pairs).toFinset.card := by
  have hk : (keys (ofList pairs)).toFinset = (keys pairs).toFinset := by
    ext k
    simp only [List.mem_toFinset, mem_keys_ofList]
  rw [← hk, List.toFinset_card_of_nodup (distinct_ofList pairs), keys, List.length_map]

end Entries

/-! ### Passes -/

namespace Cursor

/-- The members that a pass gives in `n` steps. -/
def taken (n : Nat) (c : Cursor) : List (String × Value) := (c.steps n).1.filterMap Prod.fst

lemma taken_eq (n : Nat) (c : Cursor) : c.taken n = c.rest.take n := by
  induction n generalizing c with
  | zero => rfl
  | succ n ih =>
    have hs : c.taken (n + 1) = c.next.1.toList ++ c.next.2.taken n := by
      rw [taken, steps_succ, List.filterMap_cons]
      cases c.next.1 <;> rfl
    rw [hs, ih, c.next_fst, c.rest_next]
    cases c.rest <;> simp

end Cursor

namespace Entries

/-- **Objects from pairs.** An object made from pairs has exactly the members that the pairs
describe: as many as there are different keys, and none under any other key. A pass over it gives an
object like it, and with more pairs the old keys stay in their places before the new ones, while the
new values win. -/
theorem construction_laws (pairs more : List (String × Value)) :
    (∀ members, Describes pairs members ↔ members = ofList pairs) ∧
    (∀ regs es p q, Expr.evalMembers regs es p = .ok pairs q →
      (Expr.object es).eval regs p = .ok (.object q.next (ofList pairs)) q.fresh.2) ∧
    (ofList pairs).length = (keys pairs).toFinset.card ∧
    (∀ k, get? k (ofList pairs) = none ↔ k ∉ keys pairs) ∧
    (∀ n, ofList ((Cursor.start (ofList pairs)).taken ((ofList pairs).length + n)) =
      ofList pairs) ∧
    keys (ofList (pairs ++ more)) =
      keys (ofList pairs) ++ (keys (ofList more)).filter (fun k => k ∉ keys (ofList pairs)) ∧
    (∀ k, get? k (ofList (pairs ++ more)) =
      (get? k (ofList more)).or (get? k (ofList pairs))) := by
  refine ⟨fun members => ⟨fun h => h.unique (describes_ofList pairs), ?_⟩,
    fun _ _ _ _ => Expr.eval_object_ofList, length_ofList pairs, fun k => ?_, fun n => ?_, ?_,
    fun k => ?_⟩
  · rintro rfl
    exact describes_ofList pairs
  · rw [get?_eq_none_iff, mem_keys_ofList]
  · have ht : (Cursor.start (ofList pairs)).taken ((ofList pairs).length + n) = ofList pairs := by
      rw [Cursor.taken_eq]
      exact List.take_of_length_le (Nat.le_add_right _ n)
    rw [ht, ofList_of_distinct (distinct_ofList pairs)]
  · have ha : ofList (pairs ++ more) = insertAll (ofList pairs) more := insertAll_append _ _ _
    rw [ha, keys_insertAll, newcomers, eraseDups_filter, keys_ofList more]
  · have ha : ofList (pairs ++ more) = insertAll (ofList pairs) more := insertAll_append _ _ _
    rw [ha, get?_insertAll]

end Entries

end ObjectModel
