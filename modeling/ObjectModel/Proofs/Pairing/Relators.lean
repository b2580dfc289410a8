import Mathlib
import ObjectModel.Value.Basic

/-!
Relations between the parts of values of two runs: pairs, keys of maps, what natives do, and
entries, related one by one. Where related keys are equal exactly together, looking up, inserting
and building from pairs take related entries to related ones.
-/

namespace ObjectModel

variable {κ κ' ν ν' : Type}

inductive Pair.Rel (K : κ → κ' → Prop) (V : ν → ν' → Prop) : κ × ν → κ' × ν' → Prop where
  | mk {k : κ} {k' : κ'} {v : ν} {v' : ν'} (hk : K k k') (hv : V v v') : Rel K V (k, v) (k', v')

inductive MapKey.Rel (K : κ → κ' → Prop) : MapKey κ → MapKey κ' → Prop where
  | str (s : String) : Rel K (.str s) (.str s)
  | int (n : Int64) : Rel K (.int n) (.int n)
  | bool (b : Bool) : Rel K (.bool b) (.bool b)
  | keyword {k : κ} {k' : κ'} (h : K k k') : Rel K (.keyword k) (.keyword k')

inductive Code.Rel (V : ν → ν' → Prop) : Code κ ν → Code κ ν' → Prop where
  | this : Rel V .this .this
  | args : Rel V .args .args
  | sum : Rel V .sum .sum
  | const {v : ν} {v' : ν'} (h : V v v') : Rel V (.const v) (.const v')
  | fail (key : κ) : Rel V (.fail key) (.fail key)
  | path (keys : List κ) : Rel V (.path keys) (.path keys)
  | pathArg (keys : List κ) : Rel V (.pathArg keys) (.pathArg keys)
  | send (key : κ) : Rel V (.send key) (.send key)
  | apply : Rel V .apply .apply

lemma Pair.Rel.imp {K L : κ → κ' → Prop} {V W : ν → ν' → Prop} (hK : ∀ k k', K k k' → L k k')
    (hV : ∀ v v', V v v' → W v v') {e : κ × ν} {f : κ' × ν'} (h : Pair.Rel K V e f) :
    Pair.Rel L W e f := by
  cases h with
  | mk hk hv => exact .mk (hK _ _ hk) (hV _ _ hv)

lemma MapKey.Rel.imp {K L : κ → κ' → Prop} (h : ∀ k k', K k k' → L k k') {a : MapKey κ}
    {b : MapKey κ'} (hab : a.Rel K b) : a.Rel L b := by
  cases hab with
  | keyword hk => exact .keyword (h _ _ hk)
  | _ => constructor

lemma Pair.Rel.eq {K : κ → κ → Prop} {V : ν → ν → Prop} (hK : ∀ k k', K k k' → k = k')
    (hV : ∀ v v', V v v' → v = v') {e f : κ × ν} (h : Pair.Rel K V e f) : e = f := by
  obtain ⟨hk, hv⟩ := h
  rw [hK _ _ hk, hV _ _ hv]

lemma MapKey.Rel.eq {K : κ → κ → Prop} (hK : ∀ k k', K k k' → k = k') {a b : MapKey κ}
    (h : a.Rel K b) : a = b := by
  cases h with
  | keyword h => rw [hK _ _ h]
  | _ => rfl

lemma MapKey.Rel.map_eq {γ : Type} {K : κ → κ' → Prop} {f : κ → γ} {g : κ' → γ}
    (hfg : ∀ k k', K k k' → f k = g k') {a : MapKey κ} {b : MapKey κ'} (h : a.Rel K b) :
    a.map f = b.map g := by
  cases h with
  | keyword h => simp only [MapKey.map, hfg _ _ h]
  | _ => rfl

lemma Code.Rel.imp {V W : ν → ν' → Prop} (h : ∀ v v', V v v' → W v v') {c : Code κ ν}
    {d : Code κ ν'} (hcd : c.Rel V d) : c.Rel W d := by
  cases hcd with
  | const hv => exact .const (h _ _ hv)
  | _ => constructor

open Relator

lemma eq_of_forall₂ {α : Type} {R : α → α → Prop} (hR : ∀ a b, R a b → a = b) {as bs : List α}
    (h : List.Forall₂ R as bs) : as = bs := by
  rw [← List.forall₂_eq_eq_eq]
  exact h.imp hR

lemma map_eq_of_forall₂ {α β γ : Type} {R : α → β → Prop} {f : α → γ} {g : β → γ}
    (hfg : ∀ a b, R a b → f a = g b) {as : List α} {bs : List β} (h : List.Forall₂ R as bs) :
    as.map f = bs.map g := by
  rw [← List.forall₂_eq_eq_eq]
  exact List.rel_map (fun a b hab => hfg a b hab) h

lemma forall₂_zip {α β : Type} {K : κ → κ' → Prop} {R : α → β → Prop} {ks : List κ} {js : List κ'}
    {as : List α} {bs : List β} (hk : List.Forall₂ K ks js) (h : List.Forall₂ R as bs) :
    List.Forall₂ (Pair.Rel K R) (ks.zip as) (js.zip bs) := by
  induction hk generalizing as bs with
  | nil => exact .nil
  | cons hkj _ ih =>
    cases h with
    | nil => exact .nil
    | cons hab h => exact .cons (.mk hkj hab) (ih h)

/-- What is related to one list is related to each other. -/
lemma forall₂_join {α β γ : Type} {M : α → β → Prop} {N : α → γ → Prop} {as : List α} {bs : List β}
    {cs : List γ} (h : List.Forall₂ M as bs) (h' : List.Forall₂ N as cs) :
    List.Forall₂ (fun b c => ∃ a ∈ as, M a b ∧ N a c) bs cs := by
  induction h generalizing cs with
  | nil =>
    cases h'
    exact .nil
  | cons hab _ ih =>
    obtain _ | ⟨hac, h'⟩ := h'
    refine .cons ⟨_, List.mem_cons_self, hab, hac⟩ ((ih h').imp fun b c ⟨a, ha, h⟩ => ?_)
    exact ⟨a, List.mem_cons_of_mem _ ha, h⟩

lemma rel_getElem? {α β : Type} {R : α → β → Prop} {as : List α} {bs : List β}
    (h : List.Forall₂ R as bs) (n : Nat) : Option.Rel R as[n]? bs[n]? := by
  induction h generalizing n with
  | nil => exact .none
  | cons hab _ ih =>
    cases n with
    | zero => exact .some hab
    | succ n => simpa using ih n

lemma option_imp {α β : Type} {R S : α → β → Prop} (h : ∀ a b, R a b → S a b) {a : Option α}
    {b : Option β} (hab : Option.Rel R a b) : Option.Rel S a b := by
  cases hab with
  | some hab => exact .some (h _ _ hab)
  | none => exact .none

lemma beq_eq_of_biUnique {α β : Type} [BEq α] [LawfulBEq α] [BEq β] [LawfulBEq β]
    {R : α → β → Prop} (hR : BiUnique R) {a a' : α} {b b' : β} (h : R a b) (h' : R a' b') :
    (a == a') = (b == b') := by
  rw [Bool.eq_iff_iff, beq_iff_eq, beq_iff_eq]
  exact rel_eq hR h h'

lemma biUnique_eq {α : Type} : BiUnique (@Eq α) :=
  ⟨fun _ _ _ h h' => h.trans h'.symm, fun _ _ _ h h' => h.symm.trans h'⟩

lemma biUnique_graph {α β : Type} {f : α → β} (hf : Function.Injective f) :
    BiUnique fun a b => f a = b :=
  ⟨fun _ _ _ h h' => hf (h.trans h'.symm), fun _ _ _ h h' => h.symm.trans h'⟩

lemma biUnique_option {α β : Type} {R : α → β → Prop} (h : BiUnique R) :
    BiUnique (Option.Rel R) := by
  constructor
  · rintro _ _ _ (⟨ha⟩ | _) (⟨hb⟩ | _)
    · rw [h.1 ha hb]
    · rfl
  · rintro _ _ _ (⟨ha⟩ | _) (⟨hb⟩ | _)
    · rw [h.2 ha hb]
    · rfl

lemma MapKey.Rel.biUnique {K : κ → κ' → Prop} (h : BiUnique K) : BiUnique (MapKey.Rel K) := by
  constructor
  · intro a b c ha hb
    cases ha <;> cases hb <;> try rfl
    case keyword.keyword j c hj k hk => rw [h.1 hj hk]
  · intro a b c hb hc
    cases hb <;> cases hc <;> try rfl
    case keyword.keyword a j hj k hk => rw [h.2 hj hk]

namespace Entries

variable {K : κ → κ' → Prop} {V : ν → ν' → Prop} {es : List (κ × ν)} {fs : List (κ' × ν')}

lemma rel_keys (h : List.Forall₂ (Pair.Rel K V) es fs) : List.Forall₂ K (keys es) (keys fs) :=
  List.rel_map (fun _ _ hp => match hp with | .mk hk _ => hk) h

lemma rel_values (h : List.Forall₂ (Pair.Rel K V) es fs) :
    List.Forall₂ V (values es) (values fs) :=
  List.rel_map (fun _ _ hp => match hp with | .mk _ hv => hv) h

variable [DecidableEq κ] [DecidableEq κ'] (hK : BiUnique K)
include hK

lemma rel_get? {k : κ} {k' : κ'} (hk : K k k') (h : List.Forall₂ (Pair.Rel K V) es fs) :
    Option.Rel V (get? k es) (get? k' fs) := by
  induction h with
  | nil => exact .none
  | cons hp _ ih =>
    obtain ⟨hj, hv⟩ := hp
    simp only [get?, rel_eq hK hj hk]
    split
    · exact .some hv
    · exact ih

lemma rel_contains {k : κ} {k' : κ'} (hk : K k k') (h : List.Forall₂ (Pair.Rel K V) es fs) :
    contains k es = contains k' fs := by
  induction h with
  | nil => rfl
  | cons hp _ ih =>
    obtain ⟨hj, hv⟩ := hp
    simp only [contains, List.any_cons, rel_eq hK hj hk] at ih ⊢
    rw [ih]

lemma rel_insert {k : κ} {k' : κ'} {v : ν} {v' : ν'} (hk : K k k') (hv : V v v')
    (h : List.Forall₂ (Pair.Rel K V) es fs) :
    List.Forall₂ (Pair.Rel K V) (insert k v es) (insert k' v' fs) := by
  induction h with
  | nil => exact .cons (.mk hk hv) .nil
  | cons hp h ih =>
    obtain ⟨hj, hw⟩ := hp
    simp only [insert, rel_eq hK hj hk]
    split
    · exact .cons (.mk hj hv) h
    · exact .cons (.mk hj hw) ih

lemma rel_ofList {ps : List (κ × ν)} {qs : List (κ' × ν')}
    (h : List.Forall₂ (Pair.Rel K V) ps qs) :
    List.Forall₂ (Pair.Rel K V) (ofList ps) (ofList qs) :=
  List.rel_foldl (fun _ _ hes _ _ hp => match hp with | .mk hk hv => rel_insert hK hk hv hes)
    .nil h

end Entries

end ObjectModel
