import Mathlib
import ObjectModel.Conversion
import ObjectModel.Proofs.Pairing.Relators
import ObjectModel.Shape.Basic

/-!
Conversions made at different times. What becomes of the same host data is one draft, each time with
identities that are given out just then, and nothing in it is seen to differ. Main statement:
`Draft.make_apply`.
-/

namespace ObjectModel

open List (Forall₂)
open Relator

/-! ### Identities given out -/

namespace Process

/-- The process that has given out `n` identities more. -/
def given (p : Process) (n : Nat) : Process := { p with next := p.next + n }

/-- The identities that are given out from `p` to `q`. -/
def between (p q : Process) : Set Ident := Set.Ico p.next q.next

lemma given_given (p : Process) (n m : Nat) : (p.given n).given m = p.given (n + m) := by
  rw [given, given, given, Nat.add_assoc]

end Process

/-! ### Making a draft -/

namespace Draft

variable {ε : Type}

mutual

/-- How many identities it takes to make it. -/
def draws : Draft → Nat
  | held _ => 0
  | native _ _ => 1
  | aggregate _ parts => drawsAll parts + 1

def drawsAll : List Draft → Nat
  | [] => 0
  | d :: ds => draws d + drawsAll ds

end

mutual

/-- The value that is made with the identities from `i` on. -/
def value (i : Ident) : Draft → Value
  | held v => v
  | native name code => .function ⟨name, .native i code, none⟩
  | aggregate frame parts => frame.value (i + drawsAll parts) (values i parts)

def values (i : Ident) : List Draft → List Value
  | [] => []
  | d :: ds => value i d :: values (i + draws d) ds

end

mutual

/-- **Making a draft** gives its value with the next identities, and does nothing else. -/
theorem make_apply : ∀ (d : Draft) (p : Process),
    (d.make : Act ε Value) p = .ok (d.value p.next) (p.given d.draws)
  | held v, p => by rw [make, value]; rfl
  | native name code, p => by rw [make, value]; rfl
  | aggregate frame parts, p => by
    rw [make, Act.bind_apply, makeAll_apply parts p, value]
    rfl

theorem makeAll_apply : ∀ (ds : List Draft) (p : Process),
    (makeAll ds : Act ε (List Value)) p = .ok (values p.next ds) (p.given (drawsAll ds))
  | [], p => rfl
  | d :: ds, p => by
    rw [makeAll, Act.bind_apply, make_apply d p]
    simp only [Act.bind_apply, makeAll_apply ds (p.given d.draws), p.given_given]
    rfl

end

/-- The draft is made into this value with identities from the set. -/
def Makes (S : Set Ident) (d : Draft) (v : Value) : Prop :=
  ∃ i : Nat, Set.Ico i (i + d.draws) ⊆ S ∧ v = d.value i

variable {S T : Set Ident} {d : Draft} {v u : Value}

lemma makes_held (S : Set Ident) (v : Value) : (held v).Makes S v :=
  ⟨0, (Set.Ico_self 0).trans_subset S.empty_subset, by rw [value]⟩

lemma Makes.mono (hST : S ⊆ T) (h : d.Makes S v) : d.Makes T v := by
  obtain ⟨i, hi, hv⟩ := h
  exact ⟨i, hi.trans hST, hv⟩

/-- What takes no identities is there already, so it is always the same. -/
lemma Makes.eq_of_draws (hv : d.Makes S v) (hu : d.Makes T u) (h : d.draws = 0) : v = u := by
  obtain ⟨i, -, rfl⟩ := hv
  obtain ⟨j, -, rfl⟩ := hu
  cases d with
  | held => rw [value, value]
  | native => cases h
  | aggregate => cases h

/-- Drafts that are made one after the other. -/
lemma forall₂_makes {i : Nat} (ds : List Draft) (h : Set.Ico i (i + drawsAll ds) ⊆ S) :
    Forall₂ (Makes S) ds (values i ds) := by
  induction ds generalizing i with
  | nil => exact .nil
  | cons d ds ih =>
    rw [drawsAll] at h
    refine .cons ⟨i, (Set.Ico_subset_Ico_right ?_).trans h, rfl⟩
      (ih ((Set.Ico_subset_Ico ?_ ?_).trans h)) <;> omega

end Draft

/-! ### What is seen of it -/

variable {names : Keyword → String}

lemma Frame.shape_value (f : Frame) (i j : Ident) {vs us : List Value}
    (h : Forall₂ (fun v u => v.shape names = u.shape names) vs us) :
    (f.value i vs).shape names = (f.value j us).shape names := by
  have hp {κ : Type} [DecidableEq κ] (ks : List κ) :=
    Entries.rel_ofList biUnique_eq (forall₂_zip (List.forall₂_refl ks) h)
  cases f with
  | list =>
    simp only [value, Value.shape, Value.shapes_eq_map]
    rw [map_eq_of_forall₂ (fun _ _ => id) h]
  | object ks =>
    simp only [value, Value.shape, Value.memberShapes_eq_map]
    rw [map_eq_of_forall₂ (fun _ _ he => ?_) (hp ks)]
    obtain ⟨rfl, he⟩ := he
    rw [he]
  | map ks =>
    simp only [value, Value.shape, Value.entryShapes_eq_map]
    rw [map_eq_of_forall₂ (fun _ _ he => ?_) (hp ks)]
    obtain ⟨rfl, he⟩ := he
    rw [he]

namespace Draft

mutual

theorem shape_value : ∀ (d : Draft) (i j : Ident),
    (d.value i).shape names = (d.value j).shape names
  | held v, i, j => by rw [value, value]
  | native name code, i, j => by rw [value, value]; rfl
  | aggregate frame parts, i, j => by
    rw [value, value]
    exact frame.shape_value _ _ (forall₂_shape parts i j)

theorem forall₂_shape : ∀ (ds : List Draft) (i j : Ident),
    Forall₂ (fun v u => v.shape names = u.shape names) (values i ds) (values j ds)
  | [], _, _ => .nil
  | d :: ds, i, j => .cons (shape_value d i j) (forall₂_shape ds _ _)

end

end Draft

/-! ### Two makings -/

/-- The values are made from one draft, so they differ in no more than identities, one having them
from `S` and the other from `T`. -/
def Value.SameBut (S T : Set Ident) (v u : Value) : Prop := ∃ d : Draft, d.Makes S v ∧ d.Makes T u

namespace Value.SameBut

variable {S T : Set Ident} {v u : Value}

lemma refl (S T : Set Ident) (v : Value) : v.SameBut S T v :=
  ⟨.held v, Draft.makes_held S v, Draft.makes_held T v⟩

/-- They look the same. -/
lemma shape_eq (h : SameBut S T v u) (names : Keyword → String) :
    v.shape names = u.shape names := by
  obtain ⟨d, ⟨i, -, rfl⟩, ⟨j, -, rfl⟩⟩ := h
  exact d.shape_value i j

end Value.SameBut

/-! ### Conversions -/

section Conversions

variable {ε α κ ν : Type} [IntoValue α] [IntoValue ν]

/-- Whatever the process, a conversion makes the draft with the identities that it draws. -/
lemma makes_of_into {a : α} {v : Value} {p q : Process}
    (h : (IntoValue.into a : Act ε Value) p = .ok v q) :
    (IntoValue.draft a).Makes (p.between q) v := by
  rw [IntoValue.into_eq, Draft.make_apply] at h
  cases h
  exact ⟨p.next, subset_rfl, rfl⟩

lemma intoAll_eq (as : List α) :
    (intoAll as : Act ε (List Value)) = Draft.makeAll (as.map IntoValue.draft) := by
  induction as with
  | nil => rfl
  | cons a as ih => rw [intoAll, List.map_cons, Draft.makeAll, IntoValue.into_eq, ih]

/-- How many identities it takes to convert the values. -/
def draws (as : List α) : Nat := Draft.drawsAll (as.map IntoValue.draft)

lemma intoAll_apply (as : List α) (p : Process) :
    ∃ vs, (intoAll as : Act ε (List Value)) p = .ok vs (p.given (draws as)) ∧
      Forall₂ (fun a v => (IntoValue.draft a).Makes (p.between (p.given (draws as))) v) as vs := by
  rw [intoAll_eq]
  refine ⟨_, Draft.makeAll_apply _ p, ?_⟩
  exact List.forall₂_map_left_iff.1 (Draft.forall₂_makes _ le_rfl)

lemma intoAll_of_held [ToValue α] (h : ∀ a : α, IntoValue.draft a = .held (ToValue.toValue a))
    (as : List α) : (intoAll as : Act ε (List Value)) = pure (as.map ToValue.toValue) := by
  have hd : as.map IntoValue.draft = (as.map ToValue.toValue).map Draft.held := by
    rw [List.map_map]
    exact List.map_congr_left fun a _ => h a
  rw [intoAll_eq, hd, Draft.makeAll_held]

variable [DecidableEq κ]

/-- Each value is inserted before the next one is converted, which makes no difference. -/
lemma insertEach_eq (key : String → κ) (es : List (κ × Value)) (pairs : List (String × ν)) :
    (insertEach key es pairs : Act ε _) = do
      let vs ← intoAll (Entries.values pairs)
      return Entries.insertAll es (((Entries.keys pairs).map key).zip vs) := by
  induction pairs generalizing es with
  | nil => rfl
  | cons e pairs ih =>
    obtain ⟨k, a⟩ := e
    rw [Entries.values, Entries.keys] at ih ⊢
    simp only [insertEach, ih, List.map_cons, intoAll, bind_assoc, pure_bind]
    rfl

/-- The entries are those that a map of the host has, each with its value made. -/
lemma insertEach_apply {key : String → κ} (hkey : Function.Injective key)
    (pairs : List (String × ν)) (p : Process) :
    ∃ es, (insertEach key [] pairs : Act ε _) p = .ok es (p.given (draws (Entries.values pairs))) ∧
      Forall₂ (Pair.Rel (fun s k => key s = k) fun a v => (IntoValue.draft a).Makes
        (p.between (p.given (draws (Entries.values pairs)))) v) (Entries.ofList pairs) es := by
  obtain ⟨vs, hvs, hr⟩ := intoAll_apply (ε := ε) (Entries.values pairs) p
  have hk : Forall₂ (fun s k => key s = k) (Entries.keys pairs) ((Entries.keys pairs).map key) :=
    List.forall₂_map_right_iff.2 (List.forall₂_same.2 fun _ _ => rfl)
  have hz : (Entries.keys pairs).zip (Entries.values pairs) = pairs :=
    List.zip_map'.trans (List.map_id pairs)
  have hp := Entries.rel_ofList (biUnique_graph hkey) (forall₂_zip hk hr)
  rw [hz] at hp
  refine ⟨_, ?_, hp⟩
  rw [insertEach_eq, Act.bind_apply, hvs]
  rfl

/-- Values are inserted as they are. -/
lemma insertEach_values (key : String → κ) (pairs : List (String × Value)) :
    (insertEach key [] pairs : Act ε _) = pure (Entries.ofList (pairs.map (Prod.map key id))) := by
  have hz : ((Entries.keys pairs).map key).zip ((Entries.values pairs).map ToValue.toValue) =
      pairs.map (Prod.map key id) := by
    rw [Entries.keys, Entries.values, List.map_map, List.map_map, List.zip_map']
    rfl
  rw [insertEach_eq, intoAll_of_held fun _ => rfl, pure_bind, hz]
  rfl

end Conversions

end ObjectModel
