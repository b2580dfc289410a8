import Mathlib
import ObjectModel.Proofs.Pairing.Act

/-!
Making values, reading members and calling functions in two runs side by side.
-/

namespace ObjectModel.Pairing

open List (Forall₂)
open Relator

variable {W : Type} [Preorder W] {P : Pairing W} {w : W} {ε : Type}

/-! ### Aggregates -/

lemma agree_newList {vs us : List Value} (h : Forall₂ (P.Alike w) vs us) :
    P.Agree w P.Alike (Value.newList vs : Act ε Value) (Value.newList us) :=
  agree_bind (agree_fresh (.list vs) (.list us) trivial trivial (.list h)) fun _ _ _ hw ht =>
    agree_pure (.list ht (P.items_mono hw h))

lemma agree_newObject {ms ns : List (String × Value)} (hm : Entries.Distinct ms)
    (hn : Entries.Distinct ns) (h : Forall₂ (Pair.Rel Eq (P.Alike w)) ms ns) :
    P.Agree w P.Alike (Value.newObject ms : Act ε Value) (Value.newObject ns) :=
  agree_bind (agree_fresh (.object ms) (.object ns) hm hn (.object h)) fun _ _ _ hw ht =>
    agree_pure (.object ht (P.members_mono hw h))

lemma agree_newMap {es fs : List (MapKey Keyword × Value)} (he : Entries.Distinct es)
    (hf : Entries.Distinct fs)
    (h : Forall₂ (Pair.Rel (MapKey.Rel (P.keyword w)) (P.Alike w)) es fs) :
    P.Agree w P.Alike (Value.newMap es : Act ε Value) (Value.newMap fs) :=
  agree_bind (agree_fresh (.map es) (.map fs) he hf (.map h)) fun _ _ _ hw ht =>
    agree_pure (.map ht (P.entries_mono hw h))

lemma agree_newPairs {ps qs : List (Value × Value)}
    (h : Forall₂ (Pair.Rel (P.Alike w) (P.Alike w)) ps qs) :
    P.Agree w (fun w => Forall₂ (P.Alike w)) (Value.newPairs ps : Act ε (List Value))
      (Value.newPairs qs) := by
  induction ps generalizing w qs with
  | nil =>
    cases h
    exact agree_pure .nil
  | cons p ps ih =>
    obtain _ | ⟨⟨ha, hb⟩, h⟩ := h
    refine agree_bind (agree_newList (.cons ha (.cons hb .nil))) fun w₁ v u hw₁ hv => ?_
    have h₁ := h.imp fun _ _ hp => hp.imp (fun _ _ => P.alike_mono hw₁) fun _ _ => P.alike_mono hw₁
    exact agree_bind (ih h₁) fun w₂ vs us hw₂ hvs => agree_pure (.cons (P.alike_mono hw₂ hv) hvs)

/-! ### Reading -/

lemma agree_bind_function {f g : Function} {r s : Value}
    (hf : P.Alike w (.function f) (.function g)) (hr : P.Alike w r s) :
    P.Agree w (fun w f g => P.Alike w (.function f) (.function g)) (f.bind r : Act ε Function)
      (g.bind s) := by
  cases hf with
  | @native name i j c d h hc =>
    have hf := Alike.native h hc
    refine agree_bind (agree_fresh (.binding name (.native i c) r) (.binding name (.native j d) s)
      trivial trivial (.binding hf hr)) fun w' _ _ hw ht => ?_
    exact agree_pure (.bound ht (P.alike_mono hw hf) (P.alike_mono hw hr))
  | bound h hf hr' => exact agree_pure (.bound h hf hr')
  | builtin h hr' => exact agree_pure (.builtin h hr')

lemma agree_bind_builtin {b : Builtin} {r s : Value} (hb : b.Suits r) (hb' : b.Suits s)
    (hr : P.Alike w r s) :
    P.Agree w (fun w f g => P.Alike w (.function f) (.function g))
      (b.function.bind r : Act ε Function) (b.function.bind s) :=
  agree_bind (agree_fresh (.binding b.name (.builtin b) r) (.binding b.name (.builtin b) s)
    ⟨rfl, hb⟩ ⟨rfl, hb'⟩ (.builtin b hr)) fun _ _ _ hw ht =>
      agree_pure (.builtin ht (P.alike_mono hw hr))

/-- What two alike values hold under a key: alike values too, or the same builtin, not yet bound. -/
inductive Stored (P : Pairing W) (w : W) (r s : Value) : Option Value → Option Value → Prop where
  | none : Stored P w r s none none
  | value {v u : Value} (h : P.Alike w v u) : Stored P w r s (some v) (some u)
  | builtin (b : Builtin) (hr : b.Suits r) (hs : b.Suits s) :
      Stored P w r s (some (.ofBuiltin b)) (some (.ofBuiltin b))

lemma agree_settle {r s : Value} (hr : P.Alike w r s) {o o' : Option Value}
    (h : P.Stored w r s o o') : P.Agree w P.Alike (r.settle o : Act ε Value) (s.settle o') := by
  cases h with
  | none => exact agree_pure .nil
  | builtin b hb hb' =>
    exact agree_bind (agree_bind_builtin hb hb' hr) fun _ _ _ _ hf => agree_pure hf
  | value h =>
    cases h with
    | null => exact agree_pure .nil
    | native h hc =>
      exact agree_bind (agree_bind_function (.native h hc) hr) fun _ _ _ _ hf => agree_pure hf
    | bound h hf hr' => exact agree_pure (.bound h hf hr')
    | builtin h hr' => exact agree_pure (.builtin h hr')
    | nil => exact agree_pure .nil
    | bool b => exact agree_pure (.bool b)
    | int n => exact agree_pure (.int n)
    | float x => exact agree_pure (.float x)
    | str t => exact agree_pure (.str t)
    | keyword h => exact agree_pure (.keyword h)
    | list h hi => exact agree_pure (.list h hi)
    | object h hm => exact agree_pure (.object h hm)
    | map h he => exact agree_pure (.map h he)

lemma stored_of_alike {v u : Value} (h : P.Alike w v u) {r r' : Registry}
    (hn : ∀ j k, P.keyword w j k → r.nameOf j = r'.nameOf k) (key : MemberKey) :
    P.Stored w v u (v.stored? r key) (u.stored? r' key) := by
  rcases key with s | c
  -- a name
  · cases h with
    | str t => simp only [Value.stored?]; split_ifs; exacts [.value (.int _), .none]
    | keyword h =>
      simp only [Value.stored?, hn _ _ h]; split_ifs; exacts [.value (.str _), .none]
    | list _ hi =>
      simp only [Value.stored?, hi.length_eq]; split_ifs; exacts [.value (.int _), .none]
    | @object i j ms ns _ hm =>
      simp only [Value.stored?]
      have hv := Entries.rel_get? biUnique_eq (k := s) rfl hm
      generalize Entries.get? s ms = o, Entries.get? s ns = o' at hv ⊢
      cases hv with
      | some hv => exact .value hv
      | none => exact .none
    | map _ he =>
      simp only [Value.stored?, he.length_eq]
      split_ifs
      exacts [.value (.int _), .builtin .get rfl rfl, .builtin .has rfl rfl, .none]
    | native => simp only [Value.stored?]; split_ifs; exacts [.value (.str _), .none]
    | bound => simp only [Value.stored?]; split_ifs; exacts [.value (.str _), .none]
    | builtin => simp only [Value.stored?]; split_ifs; exacts [.value (.str _), .none]
    | _ => exact .none
  -- a capability
  · cases h with
    | object =>
      cases c with
      | recordKeys => exact .builtin .keys (.inl rfl) (.inl rfl)
      | recordValues => exact .builtin .values (.inl rfl) (.inl rfl)
      | iterator => exact .builtin .entries (.inl rfl) (.inl rfl)
      | typeTag => exact .none
    | map =>
      cases c with
      | recordKeys => exact .builtin .keys (.inr rfl) (.inr rfl)
      | recordValues => exact .builtin .values (.inr rfl) (.inr rfl)
      | iterator => exact .builtin .entries (.inr rfl) (.inr rfl)
      | typeTag => exact .none
    | _ => exact .none

lemma agree_nilMember (key : MemberKey) :
    P.Agree w P.Alike (nilMember key) (nilMember key) := by
  unfold nilMember
  split
  · exact agree_pure (.str _)
  · refine agree_bind (A := fun _ _ _ => True) ?_ fun _ _ _ _ _ => agree_throw _
    exact fun p q hj => .ok le_rfl (P.nilLookup key hj) trivial

lemma agree_member {v u : Value} (h : P.Alike w v u) (key : MemberKey) :
    P.Agree w P.Alike (v.member key) (u.member key) := by
  unfold Value.member
  rw [h.isAbsent_eq]
  split
  · exact agree_nilMember key
  · refine agree_bind agree_registry fun w₁ r r' hw hn => ?_
    have h₁ := P.alike_mono hw h
    exact agree_settle h₁ (stored_of_alike h₁ hn key)

lemma agree_memberPath {v u : Value} (h : P.Alike w v u) (keys : List MemberKey) :
    P.Agree w P.Alike (v.memberPath keys) (u.memberPath keys) := by
  induction keys generalizing w v u with
  | nil => exact agree_pure h
  | cons key keys ih => exact agree_bind (agree_member h key) fun _ _ _ _ h => ih h

/-! ### Records -/

lemma rel_toValue {a b : MapKey Keyword} (h : a.Rel (P.keyword w) b) :
    P.Alike w a.toValue b.toValue := by
  cases h with
  | str s => exact .str s
  | int n => exact .int n
  | bool b => exact .bool b
  | keyword h => exact .keyword h

lemma rel_recordKeys? {v u : Value} (h : P.Alike w v u) :
    Option.Rel (Forall₂ (P.Alike w)) v.recordKeys? u.recordKeys? := by
  cases h with
  | object _ hm =>
    refine .some (List.rel_map (fun _ _ hp => ?_) hm)
    obtain ⟨rfl, -⟩ := hp
    exact .str _
  | map _ he =>
    refine .some (List.rel_map (fun _ _ hp => ?_) he)
    obtain ⟨hk, -⟩ := hp
    exact rel_toValue hk
  | _ => exact .none

lemma rel_recordValues? {v u : Value} (h : P.Alike w v u) :
    Option.Rel (Forall₂ (P.Alike w)) v.recordValues? u.recordValues? := by
  cases h with
  | object _ hm => exact .some (Entries.rel_values hm)
  | map _ he => exact .some (Entries.rel_values he)
  | _ => exact .none

lemma rel_memberPairs {ms ns : List (String × Value)}
    (h : Forall₂ (Pair.Rel Eq (P.Alike w)) ms ns) :
    Forall₂ (Pair.Rel (P.Alike w) (P.Alike w)) (ms.map fun m => (Value.str m.1, m.2))
      (ns.map fun m => (Value.str m.1, m.2)) := by
  refine List.rel_map (fun _ _ hp => ?_) h
  obtain ⟨rfl, hv⟩ := hp
  exact .mk (.str _) hv

lemma rel_recordPairs? {v u : Value} (h : P.Alike w v u) :
    Option.Rel (Forall₂ (Pair.Rel (P.Alike w) (P.Alike w))) v.recordPairs? u.recordPairs? := by
  cases h with
  | object _ hm => exact .some (rel_memberPairs hm)
  | map _ he =>
    refine .some (List.rel_map (fun _ _ hp => ?_) he)
    obtain ⟨hk, hv⟩ := hp
    exact .mk (rel_toValue hk) hv
  | _ => exact .none

/-! ### Calls -/

lemma rel_this {f g : Function} (h : P.Alike w (.function f) (.function g)) :
    P.Alike w f.this g.this := by
  cases h with
  | native => exact .nil
  | bound _ _ hr => exact hr
  | builtin _ hr => exact hr

lemma sumInts_eq {vs us : List Value} (h : Forall₂ (P.Alike w) vs us) :
    sumInts vs = sumInts us := by
  induction h with
  | nil => rfl
  | cons hv _ ih => cases hv <;> simp only [sumInts, ih]

lemma rel_headD {vs us : List Value} (h : Forall₂ (P.Alike w) vs us) :
    P.Alike w (vs.headD .nil) (us.headD .nil) := by
  cases h with
  | nil => exact .nil
  | cons h _ => exact h

/-- A map and a key looked up in it, in both runs or in neither. -/
lemma lookup_cases {r s : Value} {vs us : List Value} (hr : P.Alike w r s)
    (h : Forall₂ (P.Alike w) vs us) :
    Option.Rel (P.Alike w) (Builtin.fetch? r vs) (Builtin.fetch? s us) ∧
      Builtin.holds r vs = Builtin.holds s us := by
  have hK := MapKey.Rel.biUnique (P.biUnique_keyword w)
  unfold Builtin.fetch? Builtin.holds
  have he := hr.rel_entries?
  generalize r.entries? = o, s.entries? = o' at he ⊢
  cases he with
  | none => exact ⟨.none, rfl⟩
  | some he =>
    cases h with
    | nil => exact ⟨.none, rfl⟩
    | @cons v u _ _ hv _ =>
      have hk := hv.rel_mapKey?
      simp only [List.head?_cons, Option.bind_eq_bind, Option.bind_some]
      generalize v.mapKey? = k, u.mapKey? = k' at hk ⊢
      cases hk with
      | none => exact ⟨.none, rfl⟩
      | some hk => exact ⟨Entries.rel_get? hK hk he, Entries.rel_contains hK hk he⟩

lemma agree_listOrNil {o o' : Option (List Value)} (h : Option.Rel (Forall₂ (P.Alike w)) o o') :
    P.Agree w P.Alike (Builtin.listOrNil o : Act ε Value) (Builtin.listOrNil o') := by
  cases h with
  | some h => exact agree_newList h
  | none => exact agree_pure .nil

lemma agree_builtin (b : Builtin) {r s : Value} {vs us : List Value} (hr : P.Alike w r s)
    (h : Forall₂ (P.Alike w) vs us) :
    P.Agree w P.Alike (b.run r vs : Act ε Value) (b.run s us) := by
  cases b with
  | keys => exact agree_listOrNil (rel_recordKeys? hr)
  | values => exact agree_listOrNil (rel_recordValues? hr)
  | entries =>
    have hp := rel_recordPairs? hr
    unfold Builtin.run
    generalize r.recordPairs? = o, s.recordPairs? = o' at hp ⊢
    cases hp with
    | some hp => exact agree_bind (agree_newPairs hp) fun _ _ _ _ h => agree_newList h
    | none => exact agree_pure .nil
  | get =>
    have hv := (lookup_cases hr h).1
    unfold Builtin.run
    generalize Builtin.fetch? r vs = o, Builtin.fetch? s us = o' at hv ⊢
    cases hv with
    | some hv => exact agree_pure hv
    | none => exact agree_pure .nil
  | has =>
    unfold Builtin.run
    rw [(lookup_cases hr h).2]
    exact agree_pure (.bool _)

/-- Alike functions have the same builtin, or natives that do alike things. -/
lemma body_cases {f g : Function} (h : P.Alike w (.function f) (.function g)) :
    (∃ b, f.body = .builtin b ∧ g.body = .builtin b) ∨
      ∃ i j c d, f.body = .native i c ∧ g.body = .native j d ∧ Code.Rel (P.Alike w) c d := by
  cases h with
  | @native _ i j c d _ hc => exact .inr ⟨i, j, c, d, rfl, rfl, hc⟩
  | bound _ hf =>
    cases hf with
    | @native _ i j c d _ hc => exact .inr ⟨i, j, c, d, rfl, rfl, hc⟩
  | @builtin b => exact .inl ⟨b, rfl, rfl⟩

/-- **Calls agree** at every depth, and give up in both runs or in neither. -/
theorem agree_call (depth : Nat) {f g : Function} {vs us : List Value}
    (hf : P.Alike w (.function f) (.function g)) (h : Forall₂ (P.Alike w) vs us) :
    P.Agree w P.Alike (f.call depth vs) (g.call depth us) := by
  -- a call within goes one less deep, in a later world and with other functions and arguments
  induction depth generalizing w f g vs us with
  | zero => exact agree_throw _
  | succ depth ih =>
    have hr := rel_this hf
    obtain ⟨b, hb, hb'⟩ | ⟨i, j, c, d, hb, hb', hc⟩ := body_cases hf
    · simp only [Callable.call, hb, hb']
      exact agree_builtin b hr h
    simp only [Callable.call, hb, hb']
    cases hc with
    | this => exact agree_pure hr
    | args => exact agree_newList h
    | sum => rw [sumInts_eq h]; exact agree_pure (.int _)
    | const hv => exact agree_pure hv
    | fail key => exact agree_throw _
    | path keys => exact agree_mapError _ (agree_memberPath hr keys)
    | pathArg keys => exact agree_mapError _ (agree_memberPath (rel_headD h) keys)
    | send key =>
      refine agree_bind (agree_mapError _ (agree_member hr key)) fun w₁ v u hw hv => ?_
      have h₁ := P.items_mono hw h
      cases hv with
      | native hi hc => exact ih (.native hi hc) h₁
      | bound hi hf' hr' => exact ih (.bound hi hf' hr') h₁
      | builtin hi hr' => exact ih (.builtin hi hr') h₁
      | _ => exact agree_pure (by constructor <;> assumption)
    | apply =>
      cases h with
      | nil => exact agree_pure .nil
      | cons hv h =>
        cases hv with
        | native hi hc => exact ih (.native hi hc) h
        | bound hi hf' hr' => exact ih (.bound hi hf' hr') h
        | builtin hi hr' => exact ih (.builtin hi hr') h
        | _ => exact agree_pure .nil

end ObjectModel.Pairing
