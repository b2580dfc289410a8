/-!
Entries in insertion order: lists of pairs in which a key occurs once.

`insert` gives a known key its new value where it stands and puts a new key at the end, so the
order is that of first insertion.
-/

namespace ObjectModel.Entries

variable {κ ν : Type}

def keys (es : List (κ × ν)) : List κ := es.map Prod.fst

def values (es : List (κ × ν)) : List ν := es.map Prod.snd

/-- No key occurs twice. -/
def Distinct (es : List (κ × ν)) : Prop := (keys es).Nodup

/-- Entries that are known to have no key twice. -/
abbrev Table (κ ν : Type) := { es : List (κ × ν) // Distinct es }

variable [DecidableEq κ]

def get? (k : κ) : List (κ × ν) → Option ν
  | [] => none
  | (k', v) :: rest => if k' = k then some v else get? k rest

def contains (k : κ) (es : List (κ × ν)) : Bool := es.any fun e => e.1 = k

def insert (k : κ) (v : ν) : List (κ × ν) → List (κ × ν)
  | [] => [(k, v)]
  | (k', v') :: rest => if k' = k then (k', v) :: rest else (k', v') :: insert k v rest

/-- Inserts the pairs one after the other. -/
def insertAll (es : List (κ × ν)) (pairs : List (κ × ν)) : List (κ × ν) :=
  pairs.foldl (fun es p => insert p.1 p.2 es) es

def ofList (pairs : List (κ × ν)) : List (κ × ν) := insertAll [] pairs

@[simp] theorem insertAll_nil (es : List (κ × ν)) : insertAll es [] = es := rfl
@[simp] theorem insertAll_cons (es : List (κ × ν)) (p : κ × ν) (pairs : List (κ × ν)) :
    insertAll es (p :: pairs) = insertAll (insert p.1 p.2 es) pairs := rfl
theorem insertAll_append (es xs ys : List (κ × ν)) :
    insertAll es (xs ++ ys) = insertAll (insertAll es xs) ys := by
  simp [insertAll, List.foldl_append]

@[simp] theorem get?_nil (k : κ) : get? k ([] : List (κ × ν)) = none := rfl

theorem get?_insert (k j : κ) (v : ν) (es : List (κ × ν)) :
    get? j (insert k v es) = if k = j then some v else get? j es := by
  induction es with
  | nil => simp [insert, get?]
  | cons e rest ih =>
    obtain ⟨k', v'⟩ := e
    by_cases hk : k' = k
    · subst hk; by_cases hj : k' = j <;> simp [insert, get?, hj]
    · by_cases hj : k' = j
      · subst hj; simp [insert, get?, hk, Ne.symm hk]
      · simp [insert, get?, hk, hj, ih]

theorem keys_insert (k : κ) (v : ν) (es : List (κ × ν)) :
    keys (insert k v es) = if k ∈ keys es then keys es else keys es ++ [k] := by
  induction es with
  | nil => simp [insert, keys]
  | cons e rest ih =>
    obtain ⟨k', v'⟩ := e
    by_cases hk : k' = k
    · subst hk; simp [insert, keys]
    · simp only [insert, if_neg hk, keys, List.map_cons] at ih ⊢
      rw [ih]
      by_cases hm : k ∈ rest.map Prod.fst <;> simp [hm, Ne.symm hk]

theorem Distinct.insert {es : List (κ × ν)} (h : Distinct es) (k : κ) (v : ν) :
    Distinct (insert k v es) := by
  unfold Distinct at h ⊢
  rw [keys_insert]
  split
  · exact h
  · next hk =>
    refine List.nodup_append.2 ⟨h, by simp, fun a ha b hb => ?_⟩
    rw [List.mem_singleton] at hb
    rintro rfl
    exact hk (hb ▸ ha)

theorem distinct_ofList (pairs : List (κ × ν)) : Distinct (ofList pairs) := by
  suffices h : ∀ es : List (κ × ν), Distinct es → Distinct (insertAll es pairs) from
    h [] List.nodup_nil
  induction pairs with
  | nil => exact fun _ h => h
  | cons p rest ih => exact fun es h => ih _ (h.insert p.1 p.2)

theorem insert_of_notMem {k : κ} {es : List (κ × ν)} (h : k ∉ keys es) (v : ν) :
    insert k v es = es ++ [(k, v)] := by
  induction es with
  | nil => rfl
  | cons e rest ih =>
    obtain ⟨hk, hr⟩ := not_or.1 (mt List.mem_cons.2 h)
    rw [insert, if_neg (Ne.symm hk), ih hr, List.cons_append]

theorem insertAll_of_distinct (es : List (κ × ν)) {pairs : List (κ × ν)}
    (h : Distinct (es ++ pairs)) : insertAll es pairs = es ++ pairs := by
  induction pairs generalizing es with
  | nil => rw [insertAll_nil, List.append_nil]
  | cons p rest ih =>
    have hk : p.1 ∉ keys es := by
      intro hm
      rw [Distinct, keys, List.map_append] at h
      exact (List.nodup_append.1 h).2.2 _ hm _ List.mem_cons_self rfl
    rw [List.append_cons] at h
    rw [insertAll_cons, insert_of_notMem hk, ih _ h, List.append_cons es p rest]

/-- Entries are what they are built from. -/
theorem ofList_of_distinct {es : List (κ × ν)} (h : Distinct es) : ofList es = es :=
  insertAll_of_distinct [] h

theorem Table.ofList_zip (t : Table κ ν) : ofList ((keys t.1).zip (values t.1)) = t.1 := by
  rw [keys, values, List.zip_map']
  exact (congrArg ofList (List.map_id t.1)).trans (ofList_of_distinct t.2)

end ObjectModel.Entries
