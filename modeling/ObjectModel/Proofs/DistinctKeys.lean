import Mathlib
import ObjectModel.Proofs.FirstOccurrence
import ObjectModel.Toml.Document

/-!
No table of a TOML document has a key twice, at any depth: neither headers nor dotted keys add what
is there already. Main statement: `Toml.unambiguous_document`.
-/

namespace ObjectModel

namespace Entries

variable {κ ν : Type} [DecidableEq κ] {k : κ} {v : ν} {es : List (κ × ν)} {e : κ × ν}

lemma mem_of_get? (h : get? k es = some v) : (k, v) ∈ es := by
  induction es with
  | nil => cases h
  | cons e es ih =>
    obtain ⟨j, w⟩ := e
    by_cases hj : j = k
    · rw [get?, if_pos hj] at h
      cases h
      cases hj
      exact List.mem_cons_self
    · rw [get?, if_neg hj] at h
      exact List.mem_cons_of_mem _ (ih h)

lemma mem_insert (h : e ∈ insert k v es) : e = (k, v) ∨ e ∈ es := by
  induction es with
  | nil => exact .inl (List.mem_singleton.1 h)
  | cons e' es ih =>
    obtain ⟨j, w⟩ := e'
    by_cases hj : j = k
    · subst hj
      rw [insert, if_pos rfl] at h
      exact (List.mem_cons.1 h).imp_right (List.mem_cons_of_mem _)
    · rw [insert, if_neg hj] at h
      rcases List.mem_cons.1 h with rfl | h
      · exact .inr List.mem_cons_self
      · exact (ih h).imp_right (List.mem_cons_of_mem _)

end Entries

namespace Toml

open Entries (get? insert)

variable {ms : Members} {item : Item} {v : Value} {k : String}

/-! ### Values and what becomes one -/

/-- No table in the value has a key twice. -/
inductive Value.Unambiguous : Value → Prop where
  | string (s : String) : Unambiguous (.string s)
  | integer (n : Int64) : Unambiguous (.integer n)
  | real (x : Real) : Unambiguous (.real x)
  | boolean (b : Bool) : Unambiguous (.boolean b)
  | dateTime (d : DateTime) : Unambiguous (.dateTime d)
  | array {items : List Value} (h : ∀ v ∈ items, Unambiguous v) : Unambiguous (.array items)
  | table {members : List (String × Value)} (hd : Entries.Distinct members)
      (h : ∀ e ∈ members, Unambiguous e.2) : Unambiguous (.table members)

/-- The same of what is put together. -/
inductive Item.Unambiguous : Item → Prop where
  | value {v : Value} (h : v.Unambiguous) : Unambiguous (.value v)
  | table {origin : Origin} {members : Members} (hd : Entries.Distinct members)
      (h : ∀ e ∈ members, Unambiguous e.2) : Unambiguous (.table origin members)
  | tables {elements : List Members} (hd : ∀ ms ∈ elements, Entries.Distinct ms)
      (h : ∀ ms ∈ elements, ∀ e ∈ ms, Unambiguous e.2) : Unambiguous (.tables elements)

structure Members.Unambiguous (ms : Members) : Prop where
  distinct : Entries.Distinct ms
  of_mem : ∀ e ∈ ms, e.2.Unambiguous

lemma Item.unambiguous_table {origin : Origin} :
    (Item.table origin ms).Unambiguous ↔ ms.Unambiguous := by
  refine ⟨fun h => ?_, fun h => .table h.distinct h.of_mem⟩
  obtain - | ⟨hd, h⟩ | - := h
  exact ⟨hd, h⟩

lemma Item.unambiguous_tables {elements : List Members} :
    (Item.tables elements).Unambiguous ↔ ∀ ms ∈ elements, ms.Unambiguous := by
  refine ⟨fun h ms hm => ?_, fun h => .tables (fun ms hm => (h ms hm).distinct) fun ms hm =>
    (h ms hm).of_mem⟩
  obtain - | - | ⟨hd, h⟩ := h
  exact ⟨hd ms hm, h ms hm⟩

lemma finishMembers_eq (ms : Members) : finishMembers ms = ms.map fun e => (e.1, e.2.toValue) := by
  induction ms with
  | nil => rfl
  | cons e ms ih =>
    rw [List.map_cons, ← ih]
    rfl

lemma finishTables_eq (elements : List Members) :
    finishTables elements = elements.map fun ms => .table (finishMembers ms) := by
  induction elements with
  | nil => rfl
  | cons ms elements ih =>
    rw [List.map_cons, ← ih]
    rfl

lemma unambiguous_finish (hd : Entries.Distinct ms) (h : ∀ e ∈ ms, e.2.toValue.Unambiguous) :
    (Value.table (finishMembers ms)).Unambiguous := by
  rw [finishMembers_eq]
  refine .table ?_ fun e he => ?_
  · rwa [Entries.Distinct, Entries.keys, List.map_map]
  · obtain ⟨e', he', rfl⟩ := List.mem_map.1 he
    exact h e' he'

lemma Item.Unambiguous.toValue (h : item.Unambiguous) : item.toValue.Unambiguous := by
  induction h with
  | value h => exact h
  | table hd h ih => exact unambiguous_finish hd ih
  | tables hd h ih =>
    rw [Item.toValue, finishTables_eq]
    refine .array fun v hv => ?_
    obtain ⟨ms, hm, rfl⟩ := List.mem_map.1 hv
    exact unambiguous_finish (hd ms hm) (ih ms hm)

lemma Members.Unambiguous.finish (h : ms.Unambiguous) :
    (Value.table (finishMembers ms)).Unambiguous :=
  unambiguous_finish h.distinct fun e he => (h.of_mem e he).toValue

/-! ### Putting tables together -/

namespace Members

lemma unambiguous_nil : Unambiguous [] := ⟨List.nodup_nil, nofun⟩

lemma Unambiguous.insert (h : ms.Unambiguous) (hi : item.Unambiguous) (k : String) :
    Unambiguous (Entries.insert k item ms) := by
  refine ⟨h.distinct.insert k item, fun e he => ?_⟩
  rcases Entries.mem_insert he with rfl | he
  · exact hi
  · exact h.of_mem e he

lemma Unambiguous.of_get? (h : ms.Unambiguous) (hg : get? k ms = some item) : item.Unambiguous :=
  h.of_mem _ (Entries.mem_of_get? hg)

/-- Where the change succeeds, it makes no key double. -/
def Keeps (f : Members → Option Members) : Prop :=
  ∀ ⦃ms ms'⦄, ms.Unambiguous → f ms = some ms' → ms'.Unambiguous

/-- What a change gives is stored under one name. -/
lemma Unambiguous.store {α : Type} {o : Option α} {g : α → Item} (h : ms.Unambiguous)
    (hg : ∀ a, o = some a → (g a).Unambiguous)
    {ms' : Members} (he : (do let a ← o; return Entries.insert k (g a) ms) = some ms') :
    ms'.Unambiguous := by
  obtain ⟨a, ha, he⟩ := Option.bind_eq_some_iff.1 he
  cases he
  exact h.insert (hg a ha) k

lemma Keeps.updateLast {f : Members → Option Members} {elements elements' : List Members}
    (hf : Keeps f) (h : ∀ ms ∈ elements, ms.Unambiguous)
    (hu : Members.updateLast f elements = some elements') : ∀ ms ∈ elements', ms.Unambiguous := by
  unfold Members.updateLast at hu
  split at hu
  · cases hu
  · next e he =>
    obtain ⟨e', hfe, rfl⟩ := Option.map_eq_some_iff.1 hu
    intro ms hm
    rcases List.mem_append.1 hm with hm | hm
    · exact h ms (List.mem_of_mem_dropLast hm)
    · rw [List.mem_singleton.1 hm]
      exact hf (h e (List.mem_of_getLast? he)) hfe

lemma keeps_add (hv : v.Unambiguous) (last : String) (path : List String) :
    Keeps (add last v path) := by
  induction path with
  | nil =>
    intro ms ms' h ha
    rw [add] at ha
    split at ha
    · cases ha
    · cases ha
      exact h.insert (.value hv) last
  | cons step path ih =>
    intro ms ms' h ha
    rw [add] at ha
    split at ha
    · exact h.store (fun inner hi => Item.unambiguous_table.2 (ih unambiguous_nil hi)) ha
    · next hg =>
      have hi := Item.unambiguous_table.1 (h.of_get? hg)
      split at ha
      · cases ha
      · exact h.store (fun inner h' => Item.unambiguous_table.2 (ih hi h')) ha
    · next hg =>
      have hi := Item.unambiguous_tables.1 (h.of_get? hg)
      split at ha
      · cases ha
      · exact h.store (fun elements h' => Item.unambiguous_tables.2 (ih.updateLast hi h')) ha
    · cases ha

lemma Keeps.update {f : Members → Option Members} (hf : Keeps f) (path : List String) :
    Keeps (Members.update f path) := by
  induction path with
  | nil => exact hf
  | cons step path ih =>
    intro ms ms' h hu
    rw [Members.update] at hu
    split at hu
    · exact h.store (fun inner hi => Item.unambiguous_table.2 (ih unambiguous_nil hi)) hu
    · next hg =>
      have hi := Item.unambiguous_table.1 (h.of_get? hg)
      exact h.store (fun inner h' => Item.unambiguous_table.2 (ih hi h')) hu
    · next hg =>
      have hi := Item.unambiguous_tables.1 (h.of_get? hg)
      exact h.store (fun elements h' => Item.unambiguous_tables.2 (ih.updateLast hi h')) hu
    · cases hu

lemma keeps_openTable (name : String) : Keeps (openTable name) := by
  intro ms ms' h ho
  unfold openTable at ho
  split at ho
  · cases ho
    exact h.insert (Item.unambiguous_table.2 unambiguous_nil) name
  · next hg =>
    cases ho
    exact h.insert (Item.unambiguous_table.2 (Item.unambiguous_table.1 (h.of_get? hg))) name
  · cases ho

lemma keeps_openElement (name : String) : Keeps (openElement name) := by
  intro ms ms' h ho
  unfold openElement at ho
  split at ho
  · cases ho
    refine h.insert (Item.unambiguous_tables.2 fun ms hm => ?_) name
    rw [List.mem_singleton.1 hm]
    exact unambiguous_nil
  · next hg =>
    cases ho
    refine h.insert (Item.unambiguous_tables.2 fun ms hm => ?_) name
    rcases List.mem_append.1 hm with hm | hm
    · exact Item.unambiguous_tables.1 (h.of_get? hg) ms hm
    · rw [List.mem_singleton.1 hm]
      exact unambiguous_nil
  · cases ho

lemma keeps_addAll {pairs : List (Key × Value)} (hp : ∀ p ∈ pairs, p.2.Unambiguous) :
    Keeps (addAll · pairs) := by
  induction pairs with
  | nil =>
    intro ms ms' h ha
    cases ha
    exact h
  | cons p pairs ih =>
    intro ms ms' h ha
    obtain ⟨inner, hi, ha⟩ := Option.bind_eq_some_iff.1 ha
    exact ih (fun q hq => hp q (List.mem_cons_of_mem _ hq))
      (keeps_add (hp p List.mem_cons_self) _ _ h hi) ha

end Members

/-! ### Reading -/

/-- All that is read has the property. -/
def Yields {α : Type} (r : Reader α) (P : α → Prop) : Prop :=
  ∀ ⦃cs a rest⦄, r cs = some (a, rest) → P a

lemma forall_mem_cons_of_map {α : Type} {P : α → Prop} {a : α} {as : List α} {rest : List Char}
    {o : Option (List α × List Char)} (ha : P a)
    (ho : ∀ bs rest, o = some (bs, rest) → ∀ b ∈ bs, P b)
    (h : (o.map fun r => (a :: r.1, r.2)) = some (as, rest)) : ∀ b ∈ as, P b := by
  obtain ⟨⟨bs, rest'⟩, hb, he⟩ := Option.map_eq_some_iff.1 h
  cases he
  exact List.forall_mem_cons.2 ⟨ha, ho bs rest' hb⟩

lemma Yields.separated {α : Type} {item : Reader α} {P : α → Prop} (h : Yields item P)
    (sep : Char) : Yields (Toml.separated item sep) fun as => ∀ a ∈ as, P a := by
  intro cs as rest hs
  fun_induction Toml.separated item sep cs generalizing as rest with
  | case1 cs hi => cases hs
  | case2 cs a hi =>
    cases hs
    exact List.forall_mem_singleton.2 (h hi)
  | case3 cs a rest _ hi ih =>
    exact forall_mem_cons_of_map (h hi) (fun _ _ hb => ih hb) hs
  | case4 => cases hs
  | case5 cs a c rest hi =>
    cases hs
    exact List.forall_mem_singleton.2 (h hi)

lemma Yields.arrayItems {item : Reader Value} {P : Value → Prop} (h : Yields item P) :
    Yields (Toml.arrayItems item) fun vs => ∀ v ∈ vs, P v := by
  intro cs vs rest hs
  fun_induction Toml.arrayItems item cs generalizing vs rest with
  | case1 =>
    cases hs
    exact List.forall_mem_nil _
  | case2 => cases hs
  | case3 =>
    cases hs
    exact List.forall_mem_singleton.2 (h ‹_›)
  | case4 cs v rest' ds hd _ _ hi ih =>
    exact forall_mem_cons_of_map (h hi) (fun _ _ hb => ih hb) hs
  | case5 => cases hs
  | case6 => cases hs

lemma Yields.pair? {item : Reader Value} {P : Value → Prop} (h : Yields item P) :
    Yields (Toml.pair? item) fun p => P p.2 := by
  intro cs p rest hp
  obtain ⟨⟨k, ds⟩, -, hp⟩ := Option.bind_eq_some_iff.1 hp
  obtain ⟨es, -, hp⟩ := Option.bind_eq_some_iff.1 hp
  obtain ⟨⟨v, rest'⟩, hv, hp⟩ := Option.bind_eq_some_iff.1 hp
  cases hp
  exact h hv

lemma Yields.inlineTable {item : Reader Value} (h : Yields item Value.Unambiguous) :
    Yields (Toml.inlineTable item) Value.Unambiguous := by
  intro cs v rest ht
  unfold Toml.inlineTable at ht
  split at ht
  · cases ht
    exact Members.unambiguous_nil.finish
  · obtain ⟨⟨pairs, ds⟩, hs, ht⟩ := Option.bind_eq_some_iff.1 ht
    obtain ⟨es, -, ht⟩ := Option.bind_eq_some_iff.1 ht
    obtain ⟨ms, hm, ht⟩ := Option.bind_eq_some_iff.1 ht
    cases ht
    have hp : Yields (fun cs => (Toml.pair? item cs).map fun r => (r.1, skipSpaces r.2))
        fun p => p.2.Unambiguous := by
      intro cs p rest hp
      obtain ⟨⟨p', ds⟩, hp', he⟩ := Option.map_eq_some_iff.1 hp
      cases he
      exact h.pair? hp'
    exact (Members.keeps_addAll (hp.separated ',' hs) Members.unambiguous_nil hm).finish

lemma yields_scalar? : Yields scalar? Value.Unambiguous := by
  intro cs v rest h
  unfold scalar? at h
  split at h
  · cases h
    exact .string _
  · split at h
    · cases h
      exact .boolean _
    · cases h
      exact .boolean _
    · split at h
      · cases h
        exact .dateTime _
      · cases h
        exact .real _
      · obtain ⟨r, -, he⟩ := Option.map_eq_some_iff.1 h
        cases he
        exact .integer _

lemma yields_value? (depth : Nat) : Yields (value? depth) Value.Unambiguous := by
  induction depth with
  | zero =>
    intro cs v rest h
    exact yields_scalar? h
  | succ depth ih =>
    intro cs v rest h
    rw [value?] at h
    split at h
    · obtain ⟨⟨vs, ds⟩, hi, he⟩ := Option.map_eq_some_iff.1 h
      cases he
      exact .array (ih.arrayItems hi)
    · exact ih.inlineTable h
    · exact yields_scalar? h

/-! ### Documents -/

/-- The value that a statement adds, if it adds one, has no table with a key twice. -/
def Statement.Unambiguous : Statement → Prop
  | .pair _ v => v.Unambiguous
  | _ => True

/-- A header is read as the statement that its brackets make of the key between them. -/
lemma exists_key_of_header {header : Key → Statement} {close cs rest : List Char}
    {o : Option Statement}
    (h : (do
      let (k, cs) ← key? cs
      return (some (header k), ← lineEnd? (← after? close cs))) = some (o, rest)) :
    ∃ k, o = some (header k) := by
  obtain ⟨⟨k, ds⟩, -, h⟩ := Option.bind_eq_some_iff.1 h
  obtain ⟨es, -, h⟩ := Option.bind_eq_some_iff.1 h
  obtain ⟨fs, -, h⟩ := Option.bind_eq_some_iff.1 h
  cases h
  exact ⟨k, rfl⟩

lemma yields_line? : Yields line? fun o => ∀ s ∈ o, Statement.Unambiguous s := by
  intro cs o rest h s hs
  unfold line? at h
  split at h
  · obtain ⟨k, rfl⟩ := exists_key_of_header h
    cases hs
    trivial
  · obtain ⟨k, rfl⟩ := exists_key_of_header h
    cases hs
    trivial
  · split at h
    · cases h
      cases hs
    · obtain ⟨⟨⟨k, v⟩, ds⟩, hp, h⟩ := Option.bind_eq_some_iff.1 h
      obtain ⟨es, -, h⟩ := Option.bind_eq_some_iff.1 h
      cases h
      cases hs
      exact (yields_value? _).pair? hp

lemma statements?_unambiguous {cs : List Char} {ss : List Statement}
    (h : statements? cs = some ss) : ∀ s ∈ ss, s.Unambiguous := by
  fun_induction statements? cs generalizing ss with
  | case1 =>
    cases h
    exact List.forall_mem_nil _
  | case2 => cases h
  | case3 c more s rest hl _ ih =>
    obtain ⟨ss', hs, rfl⟩ := Option.map_eq_some_iff.1 h
    intro s' hm
    rcases List.mem_append.1 hm with hm | hm
    · exact yields_line? hl s' (Option.mem_toList.1 hm)
    · exact ih hs s' hm
  | case4 => cases h

namespace Assembly

variable {a b : Assembly} {s : Statement} {ss : List Statement}

lemma unambiguous_step (ha : a.root.Unambiguous) (hs : s.Unambiguous) (h : a.step s = some b) :
    b.root.Unambiguous := by
  cases s with
  | table k =>
    obtain ⟨ms, hu, h⟩ := Option.bind_eq_some_iff.1 h
    cases h
    exact (Members.keeps_openTable _).update _ ha hu
  | element k =>
    obtain ⟨ms, hu, h⟩ := Option.bind_eq_some_iff.1 h
    cases h
    exact (Members.keeps_openElement _).update _ ha hu
  | pair k v =>
    obtain ⟨ms, hu, h⟩ := Option.bind_eq_some_iff.1 h
    cases h
    exact (Members.keeps_add hs _ _).update _ ha hu

lemma unambiguous_run (ha : a.root.Unambiguous) (hs : ∀ s ∈ ss, s.Unambiguous)
    (h : a.run ss = some b) : b.root.Unambiguous := by
  induction ss generalizing a with
  | nil =>
    cases h
    exact ha
  | cons s ss ih =>
    obtain ⟨a', h', h⟩ := Option.bind_eq_some_iff.1 h
    exact ih (unambiguous_step ha (hs s List.mem_cons_self) h')
      (fun s' hm => hs s' (List.mem_cons_of_mem _ hm)) h

end Assembly

/-- **No key twice**: neither in the table that a document is nor in a table inside it. -/
theorem unambiguous_document {text : String} {members : List (String × Value)}
    (h : document? text = some members) : (Value.table members).Unambiguous := by
  obtain ⟨ss, hs, h⟩ := Option.bind_eq_some_iff.1 h
  obtain ⟨a, ha, h⟩ := Option.bind_eq_some_iff.1 h
  cases h
  exact (Assembly.unambiguous_run Members.unambiguous_nil (statements?_unambiguous hs) ha).finish

end Toml

end ObjectModel
