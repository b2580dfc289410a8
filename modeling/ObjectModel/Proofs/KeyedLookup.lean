import Mathlib
import ObjectModel.Proofs.Builtins

/-!
Looking up in a map. A map finds its entries by their keys, which are compared as keys; the
language has an equality of its own. The two agree on whatever can be a key, and what cannot be one
is equal to none, so asking a map comes to going through its keys with the equality of the language.
Main statement: `Script.Session.lookups_scan`.
-/

namespace ObjectModel

open Script

namespace Value

variable {a : Value} {k : MapKey Keyword} {id : Ident} {entries : List (MapKey Keyword × Value)}

/-! ### Two equalities -/

lemma mapKey?_eq_some_iff : a.mapKey? = some k ↔ a = k.toValue := by
  constructor
  · intro h
    cases a <;> cases h <;> rfl
  · rintro rfl
    exact k.mapKey?_toValue

lemma beq_toValue_of_none (h : a.mapKey? = none) (k : MapKey Keyword) :
    (a == k.toValue) = false := by
  rw [beq_def]
  cases a with
  | str | int | bool | keyword => cases h
  | _ => cases k <;> rfl

/-- A value is equal to a key exactly if it is taken for that key. -/
lemma beq_toValue_iff : a == k.toValue ↔ a.mapKey? = some k := by
  cases h : a.mapKey? with
  | none => simp [beq_toValue_of_none h]
  | some j =>
    obtain rfl := mapKey?_eq_some_iff.1 h
    rw [beq_toValue, beq_iff_eq, Option.some_inj]

/-! ### Two ways to look up -/

lemma contains_eq_scan (a : Value) (entries : List (MapKey Keyword × Value)) :
    a.mapKey?.any (Entries.contains · entries) = (Record.keys entries).any (a == ·) := by
  rw [Bool.eq_iff_iff, Option.any_eq_true, List.any_eq_true]
  constructor
  · rintro ⟨k, hk, h⟩
    obtain ⟨e, he, rfl⟩ := List.mem_map.1 (Entries.contains_iff.1 h)
    exact ⟨_, List.mem_map_of_mem he, beq_toValue_iff.2 hk⟩
  · rintro ⟨_, hk, h⟩
    obtain ⟨e, he, rfl⟩ := List.mem_map.1 hk
    exact ⟨e.1, beq_toValue_iff.1 h, Entries.contains_iff.2 (List.mem_map_of_mem he)⟩

lemma get?_eq_scan (a : Value) (entries : List (MapKey Keyword × Value)) :
    a.mapKey?.bind (Entries.get? · entries) =
      ((Record.keys entries).findIdx? (a == ·)).bind fun i => (Record.values entries)[i]? := by
  cases h : a.mapKey? with
  | none =>
    have hn : (Record.keys entries).findIdx? (a == ·) = none := by
      refine List.findIdx?_eq_none_iff.2 fun k hk => ?_
      obtain ⟨e, -, rfl⟩ := List.mem_map.1 hk
      exact beq_toValue_of_none h e.1
    rw [hn]
    rfl
  | some j =>
    obtain rfl := mapKey?_eq_some_iff.1 h
    induction entries with
    | nil => rfl
    | cons e entries ih =>
      obtain ⟨k, v⟩ := e
      have hk : Record.keys ((k, v) :: entries) = k.toValue :: Record.keys entries := rfl
      have hv : Record.values ((k, v) :: entries) = v :: Record.values entries := rfl
      rw [hk, hv, List.findIdx?_cons, beq_toValue]
      by_cases hjk : k = j
      · simp [Entries.get?, hjk]
      · rw [Option.bind_some] at ih
        simp [Entries.get?, hjk, Ne.symm hjk, ih, Option.bind_map]

/-- No value is equal to two keys of a map. -/
lemma beq_keys_unique (h : Entries.Distinct entries) {i j : Nat} {k l : Value}
    (hi : (Record.keys entries)[i]? = some k) (hj : (Record.keys entries)[j]? = some l)
    (hk : a == k) (hl : a == l) : i = j := by
  have hm {n : Nat} {u : Value} (hn : (Record.keys entries)[n]? = some u) (hu : a == u) :
      (Entries.keys entries)[n]? = a.mapKey? := by
    have hr : Record.keys entries = (Entries.keys entries).map MapKey.toValue :=
      (List.map_map ..).symm
    rw [hr, List.getElem?_map] at hn
    obtain ⟨key, hkey, rfl⟩ := Option.map_eq_some_iff.1 hn
    rw [hkey, beq_toValue_iff.1 hu]
  obtain ⟨hlt, -⟩ := List.getElem?_eq_some_iff.1 hi
  have hlt : i < (Entries.keys entries).length := by simpa [Record.keys, Entries.keys] using hlt
  exact (List.getElem?_inj hlt h).1 ((hm hi hk).trans (hm hj hl).symm)

/-! ### Calling the slots -/

lemma has_slot (id : Ident) (entries : List (MapKey Keyword × Value)) (p : Process) :
    ∃ f q, (map id entries).member (.name "has") p = .ok (.function f) q ∧
      ∀ depth args p', f.call (depth + 1) args p' =
        .ok (.bool (Builtin.holds (map id entries) args)) p' := by
  refine ⟨_, _, member_builtin (b := .has) rfl, fun depth args p' => ?_⟩
  rw [call_builtin rfl]
  rfl

lemma get_slot (id : Ident) (entries : List (MapKey Keyword × Value)) (p : Process) :
    ∃ f q, (map id entries).member (.name "get") p = .ok (.function f) q ∧
      ∀ depth args p', f.call (depth + 1) args p' =
        .ok ((Builtin.fetch? (map id entries) args).getD .nil) p' := by
  refine ⟨_, _, member_builtin (b := .get) rfl, fun depth args p' => ?_⟩
  rw [call_builtin rfl]
  rfl

/-- Asking the map under a first argument comes to a scan of its keys. What it answers with is what
stands beside the key, null or a function that is not bound included. -/
structure LooksUp (m : Value) (ks vs : List Value) : Prop where
  keys_eq : m.recordKeys? = some ks
  values_eq : m.recordValues? = some vs
  unique {a : Value} {i j : Nat} {k l : Value} :
    ks[i]? = some k → ks[j]? = some l → a == k → a == l → i = j
  has_eq (p : Process) : ∃ f q, m.member (.name "has") p = .ok (.function f) q ∧
    ∀ depth args p', f.call (depth + 1) args p' =
      .ok (.bool (args.head?.any fun a => ks.any (a == ·))) p'
  get_eq (p : Process) : ∃ f q, m.member (.name "get") p = .ok (.function f) q ∧
    ∀ depth args p', f.call (depth + 1) args p' =
      .ok (((args.head?.bind fun a => ks.findIdx? (a == ·)).bind fun i => vs[i]?).getD .nil) p'

lemma looksUp (id : Ident) (h : Entries.Distinct entries) :
    (map id entries).LooksUp (Record.keys entries) (Record.values entries) where
  keys_eq := rfl
  values_eq := rfl
  unique := beq_keys_unique h
  has_eq p := by
    obtain ⟨f, q, hm, hc⟩ := has_slot id entries p
    refine ⟨f, q, hm, fun depth args p' => ?_⟩
    rw [hc, holds_map]
    cases args with
    | nil => rfl
    | cons a args =>
      rw [List.head?_cons, Option.bind_some, contains_eq_scan]
      rfl
  get_eq p := by
    obtain ⟨f, q, hm, hc⟩ := get_slot id entries p
    refine ⟨f, q, hm, fun depth args p' => ?_⟩
    rw [hc, fetch?_map]
    cases args with
    | nil => rfl
    | cons a args =>
      rw [List.head?_cons, Option.bind_some, get?_eq_scan]
      rfl

end Value

namespace Script.Session

lemma distinct_of_holds (depth : Nat) (cs : List Command) {id : Ident}
    {entries : List (MapKey Keyword × Value)}
    (h : (initial.run depth cs).2.Holds (.map id entries)) : Entries.Distinct entries := by
  obtain ⟨L, -, ha⟩ := exists_ledger depth cs
  cases ha _ h with
  | map ht => exact (Ledger.pairing.tie_valid ht).1

/-- **Lookups scan.** Keys are equal as keys exactly if they are equal as values, and what is no key
is equal to none; so every map that a script can come to hold answers as a scan of its keys does. -/
theorem lookups_scan (depth : Nat) (cs : List Command) :
    (∀ (a b : Value) j k, a.mapKey? = some j → b.mapKey? = some k → (j = k ↔ a == b)) ∧
    (∀ (a : Value) k, a.mapKey? = some k → k.toValue == a) ∧
    (∀ a b : Value, a.mapKey? = none → b.mapKey?.isSome → (a == b) = false ∧ (b == a) = false) ∧
    (∀ id entries, (initial.run depth cs).2.Holds (.map id entries) →
      ∃ ks vs, (Value.map id entries).LooksUp ks vs) := by
  refine ⟨fun a b j k ha hb => ?_, fun a k h => ?_, fun a b ha hb => ?_, fun id entries h => ?_⟩
  · rw [Value.mapKey?_eq_some_iff.1 hb, Value.beq_toValue_iff, ha, Option.some_inj]
  · rw [Value.mapKey?_eq_some_iff.1 h]
    exact Value.beq_toValue_iff.2 k.mapKey?_toValue
  · obtain ⟨k, hk⟩ := Option.isSome_iff_exists.1 hb
    have hn : (a == b) = false := by
      rw [Value.mapKey?_eq_some_iff.1 hk]
      exact Value.beq_toValue_of_none ha k
    exact ⟨hn, (Value.beq_comm b a).trans hn⟩
  · exact ⟨_, _, Value.looksUp id (distinct_of_holds depth cs h)⟩

end Script.Session

end ObjectModel
