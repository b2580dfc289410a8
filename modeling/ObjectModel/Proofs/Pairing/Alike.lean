import Mathlib
import ObjectModel.Proofs.Pairing.Relators
import ObjectModel.Shape.Basic
import ObjectModel.Value.Equality

/-!
Values that are the same but for their identities and the numbers of their keywords.

A `Tie` says which identity of one run stands for which identity of another, and what was made
under each. Values are alike if they have the same structure throughout and every identity in one
is tied to the identity at the same place in the other. Alike values cannot be told apart by
equality or by looking at them.
-/

namespace ObjectModel

/-! ### What gets an identity -/

/-- What is made together with an identity of its own. -/
inductive Creation where
  | list (items : List Value)
  | object (members : List (String × Value))
  | map (entries : List (MapKey Keyword × Value))
  | native (name : String) (code : Code MemberKey Value)
  | binding (name : String) (body : Body Value) (receiver : Value)

/-- The receivers that a builtin is made for. -/
def Builtin.Suits : Builtin → Value → Prop
  | keys, r | values, r | entries, r => r.kind = .object ∨ r.kind = .map
  | get, r | has, r => r.kind = .map

/-- Keys occur once, and builtins are bound to what they are made for. -/
def Creation.Valid : Creation → Prop
  | list _ | native _ _ => True
  | object members => Entries.Distinct members
  | map entries => Entries.Distinct entries
  | binding _ (.native _ _) _ => True
  | binding name (.builtin b) r => name = b.name ∧ b.Suits r

/-! ### Values -/

/-- `T i c j d`: the identity `i`, under which `c` was made, stands for `j`, under which `d` was
made. -/
abbrev Tie := Ident → Creation → Ident → Creation → Prop

/-- The identities that a tie joins. -/
def Tie.ids (T : Tie) (i j : Ident) : Prop := ∃ c d, T i c j d

/-- The same value but for tied identities and related keywords. -/
inductive Alike (T : Tie) (K : Keyword → Keyword → Prop) : Value → Value → Prop where
  | nil : Alike T K .nil .nil
  | null : Alike T K .null .null
  | bool (b : Bool) : Alike T K (.bool b) (.bool b)
  | int (n : Int64) : Alike T K (.int n) (.int n)
  | float (x : Binary64) : Alike T K (.float x) (.float x)
  | str (s : String) : Alike T K (.str s) (.str s)
  | keyword {j k : Keyword} (h : K j k) : Alike T K (.keyword j) (.keyword k)
  | list {i j : Ident} {vs ws : List Value} (h : T i (.list vs) j (.list ws))
      (hi : List.Forall₂ (Alike T K) vs ws) : Alike T K (.list i vs) (.list j ws)
  | object {i j : Ident} {ms ns : List (String × Value)} (h : T i (.object ms) j (.object ns))
      (hm : List.Forall₂ (Pair.Rel Eq (Alike T K)) ms ns) :
      Alike T K (.object i ms) (.object j ns)
  | map {i j : Ident} {es fs : List (MapKey Keyword × Value)} (h : T i (.map es) j (.map fs))
      (he : List.Forall₂ (Pair.Rel (MapKey.Rel K) (Alike T K)) es fs) :
      Alike T K (.map i es) (.map j fs)
  | native {name : String} {i j : Ident} {c d : Code MemberKey Value}
      (h : T i (.native name c) j (.native name d)) (hc : Code.Rel (Alike T K) c d) :
      Alike T K (.function ⟨name, .native i c, none⟩) (.function ⟨name, .native j d, none⟩)
  | bound {name : String} {b c : Body Value} {i j : Ident} {r s : Value}
      (h : T i (.binding name b r) j (.binding name c s))
      (hf : Alike T K (.function ⟨name, b, none⟩) (.function ⟨name, c, none⟩))
      (hr : Alike T K r s) :
      Alike T K (.function ⟨name, b, some (i, r)⟩) (.function ⟨name, c, some (j, s)⟩)
  /-- A builtin is only ever seen bound. -/
  | builtin {b : Builtin} {i j : Ident} {r s : Value}
      (h : T i (.binding b.name (.builtin b) r) j (.binding b.name (.builtin b) s))
      (hr : Alike T K r s) :
      Alike T K (.function ⟨b.name, .builtin b, some (i, r)⟩)
        (.function ⟨b.name, .builtin b, some (j, s)⟩)

/-- The same for what is yet to get its identity. -/
inductive Creation.Alike (T : Tie) (K : Keyword → Keyword → Prop) : Creation → Creation → Prop where
  | list {vs ws : List Value} (h : List.Forall₂ (ObjectModel.Alike T K) vs ws) :
      Alike T K (.list vs) (.list ws)
  | object {ms ns : List (String × Value)}
      (h : List.Forall₂ (Pair.Rel Eq (ObjectModel.Alike T K)) ms ns) :
      Alike T K (.object ms) (.object ns)
  | map {es fs : List (MapKey Keyword × Value)}
      (h : List.Forall₂ (Pair.Rel (MapKey.Rel K) (ObjectModel.Alike T K)) es fs) :
      Alike T K (.map es) (.map fs)
  | native (name : String) {c d : Code MemberKey Value}
      (h : Code.Rel (ObjectModel.Alike T K) c d) : Alike T K (.native name c) (.native name d)
  | binding {name : String} {b c : Body Value} {r s : Value}
      (hf : ObjectModel.Alike T K (.function ⟨name, b, none⟩) (.function ⟨name, c, none⟩))
      (hr : ObjectModel.Alike T K r s) : Alike T K (.binding name b r) (.binding name c s)
  | builtin (b : Builtin) {r s : Value} (hr : ObjectModel.Alike T K r s) :
      Alike T K (.binding b.name (.builtin b) r) (.binding b.name (.builtin b) s)

namespace Alike

open List (Forall₂)

variable {T T' : Tie} {K K' : Keyword → Keyword → Prop} {v w v' w' : Value}

/-- Induction in which the claim is given for all parts that have been related. -/
@[elab_as_elim]
theorem induct {P : ∀ v w, Alike T K v w → Prop} (nil : P _ _ .nil) (null : P _ _ .null)
    (bool : ∀ b, P _ _ (.bool b)) (int : ∀ n, P _ _ (.int n)) (float : ∀ x, P _ _ (.float x))
    (str : ∀ s, P _ _ (.str s)) (keyword : ∀ {j k} (h : K j k), P _ _ (.keyword h))
    (list : ∀ {i j vs ws} (h : T i (.list vs) j (.list ws)) (hi),
      Forall₂ (fun v w => ∃ h, P v w h) vs ws → P _ _ (.list h hi))
    (object : ∀ {i j ms ns} (h : T i (.object ms) j (.object ns)) (hm),
      Forall₂ (Pair.Rel Eq fun v w => ∃ h, P v w h) ms ns → P _ _ (.object h hm))
    (map : ∀ {i j es fs} (h : T i (.map es) j (.map fs)) (he),
      Forall₂ (Pair.Rel (MapKey.Rel K) fun v w => ∃ h, P v w h) es fs → P _ _ (.map h he))
    (native : ∀ {name i j c d} (h : T i (.native name c) j (.native name d)) (hc),
      Code.Rel (fun v w => ∃ h, P v w h) c d → P _ _ (.native h hc))
    (bound : ∀ {name b c i j r s} (h : T i (.binding name b r) j (.binding name c s)) (hf hr),
      P _ _ hf → P r s hr → P _ _ (.bound h hf hr))
    (builtin : ∀ {b : Builtin} {i j r s}
      (h : T i (.binding b.name (.builtin b) r) j (.binding b.name (.builtin b) s)) (hr),
      P r s hr → P _ _ (.builtin h hr))
    (h : Alike T K v w) : P v w h :=
  let Q := fun v w => ∃ h, P v w h
  @Alike.rec T K P (fun vs ws _ => Forall₂ Q vs ws) (fun ms ns _ => Forall₂ (Pair.Rel Eq Q) ms ns)
    (fun es fs _ => Forall₂ (Pair.Rel (MapKey.Rel K) Q) es fs) (fun c d _ => Code.Rel Q c d)
    (fun m n _ => Pair.Rel Eq Q m n) (fun e f _ => Pair.Rel (MapKey.Rel K) Q e f)
    nil null bool int float str keyword list object map native bound builtin
    .nil (fun h _ ih ihs => .cons ⟨h, ih⟩ ihs) .nil (fun _ _ ih ihs => .cons ih ihs)
    .nil (fun _ _ ih ihs => .cons ih ihs) .this .args .sum (fun h ih => .const ⟨h, ih⟩) .fail .path
    .pathArg .send .apply (fun hk h ih => .mk hk ⟨h, ih⟩) (fun hk h ih => .mk hk ⟨h, ih⟩) v w h

lemma mono (hT : ∀ i c j d, T i c j d → T' i c j d) (hK : ∀ j k, K j k → K' j k)
    (h : Alike T K v w) : Alike T' K' v w := by
  induction h using induct with
  | keyword h => exact .keyword (hK _ _ h)
  | list h _ ih => exact .list (hT _ _ _ _ h) (ih.imp fun _ _ h => h.2)
  | object h _ ih =>
    exact .object (hT _ _ _ _ h) (ih.imp fun _ _ => Pair.Rel.imp (fun _ _ => id) fun _ _ h => h.2)
  | map h _ ih =>
    refine .map (hT _ _ _ _ h) (ih.imp fun _ _ => Pair.Rel.imp (fun _ _ => ?_) fun _ _ h => h.2)
    exact MapKey.Rel.imp hK
  | native h _ ih => exact .native (hT _ _ _ _ h) (ih.imp fun _ _ h => h.2)
  | bound h _ _ ihf ihr => exact .bound (hT _ _ _ _ h) ihf ihr
  | builtin h _ ih => exact .builtin (hT _ _ _ _ h) ih
  | _ => constructor

/-- Where ties join equal things made under equal identities, alike means equal. -/
lemma eq (hT : ∀ i c j d, T i c j d → i = j ∧ c = d) (hK : ∀ j k, K j k → j = k)
    (h : Alike T K v w) : v = w := by
  cases h with
  | keyword h => rw [hK _ _ h]
  | list h | object h | map h | native h | bound h | builtin h =>
    obtain ⟨rfl, ⟨⟩⟩ := hT _ _ _ _ h
    rfl
  | _ => rfl

/-! ### What can be seen of alike values -/

lemma kind_eq (h : Alike T K v w) : v.kind = w.kind := by cases h <;> rfl

lemma isAbsent_eq (h : Alike T K v w) : v.isAbsent = w.isAbsent := by cases h <;> rfl

lemma rel_mapKey? (h : Alike T K v w) : Option.Rel (MapKey.Rel K) v.mapKey? w.mapKey? := by
  cases h with
  | bool b => exact .some (.bool b)
  | int n => exact .some (.int n)
  | str s => exact .some (.str s)
  | keyword h => exact .some (.keyword h)
  | _ => exact .none

lemma rel_items? (h : Alike T K v w) : Option.Rel (Forall₂ (Alike T K)) v.items? w.items? := by
  cases h with
  | list _ hi => exact .some hi
  | _ => exact .none

lemma rel_entries? (h : Alike T K v w) :
    Option.Rel (Forall₂ (Pair.Rel (MapKey.Rel K) (Alike T K))) v.entries? w.entries? := by
  cases h with
  | map _ he => exact .some he
  | _ => exact .none

/-- Naming tied keywords alike makes alike values look the same. -/
lemma shape_eq {names names' : Keyword → String} (hn : ∀ j k, K j k → names j = names' k)
    (h : Alike T K v w) : v.shape names = w.shape names' := by
  induction h using induct with
  | keyword h => simp only [Value.shape, hn _ _ h]
  | list _ _ ih =>
    simp only [Value.shape, Value.shapes_eq_map]
    rw [map_eq_of_forall₂ (fun _ _ h => h.2) ih]
  | object _ _ ih =>
    simp only [Value.shape, Value.memberShapes_eq_map]
    rw [map_eq_of_forall₂ (fun _ _ h => ?_) ih]
    obtain ⟨rfl, -, h⟩ := h
    rw [h]
  | map _ _ ih =>
    simp only [Value.shape, Value.entryShapes_eq_map]
    rw [map_eq_of_forall₂ (fun _ _ h => ?_) ih]
    obtain ⟨hk, -, h⟩ := h
    rw [hk.map_eq hn, h]
  | bound _ _ _ _ ih | builtin _ _ ih => simp only [Value.shape, ih]
  | _ => rfl

open Relator

/-- One-to-one ties keep equality. -/
lemma same_eq (hT : BiUnique T.ids) (hK : BiUnique K) (h : Alike T K v w) (h' : Alike T K v' w') :
    v.same v' = w.same w' := by
  have hids {i j i' j' c d c' d'} (h : T i c j d) (h' : T i' c' j' d') : (i == i') = (j == j') :=
    beq_eq_of_biUnique hT ⟨_, _, h⟩ ⟨_, _, h'⟩
  cases h with
  | keyword h =>
    cases h' with
    | keyword h' => exact beq_eq_of_biUnique hK h h'
    | _ => rfl
  | list h =>
    cases h' with
    | list h' => exact hids h h'
    | _ => rfl
  | object h =>
    cases h' with
    | object h' => exact hids h h'
    | _ => rfl
  | map h =>
    cases h' with
    | map h' => exact hids h h'
    | _ => rfl
  | native h =>
    cases h' with
    | native h' => simp only [Value.same, Callable.same, Body.same, hids h h']
    | bound h' hf' =>
      cases hf' with
      | native hf' => simp only [Value.same, Callable.same, Body.same, hids h hf']
    | _ => rfl
  | bound h hf =>
    cases hf with
    | native hf =>
      cases h' with
      | native h' => simp only [Value.same, Callable.same, Body.same, hids hf h']
      | bound h' hf' =>
        cases hf' with
        | native hf' => simp only [Value.same, Callable.same, Body.same, hids h h', hids hf hf']
      | _ => rfl
  | builtin h =>
    cases h' with
    | bound h' hf' => cases hf'; rfl
    | builtin h' => simp only [Value.same, Callable.same, hids h h']
    | _ => rfl
  | _ => cases h' <;> rfl

end Alike

end ObjectModel
