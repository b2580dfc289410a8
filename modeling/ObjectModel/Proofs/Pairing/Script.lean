import Mathlib
import ObjectModel.Proofs.Pairing.Call
import ObjectModel.Script.Make

/-!
Expressions of a script, and the commands that make a value, in two runs side by side.
-/

namespace ObjectModel

open List (Forall₂)
open Relator
open Script

namespace Pairing

variable {W : Type} [Preorder W] {P : Pairing W} {w : W} {ε : Type} {regs regs' : Registers}

variable (P) in
/-- The same registers hold alike values. -/
abbrev RegistersAlike (w : W) : Registers → Registers → Prop := Forall₂ (Pair.Rel Eq (P.Alike w))

/-! ### Expressions -/

lemma agree_key (k : KeyExpr) : P.Agree w (fun _ => Eq) (k.eval : Act ε MemberKey) k.eval := by
  cases k with
  | name s => exact agree_pure rfl
  | capability c => exact agree_pure rfl
  | keyword s =>
    refine agree_bind (agree_intern s) fun w₁ j k _ hk => ?_
    refine agree_bind agree_registry fun w₂ r r' hw₂ hn => agree_pure ?_
    rw [hn _ _ (P.keyword_mono hw₂ hk)]

lemma agree_keys (ks : List KeyExpr) :
    P.Agree w (fun _ => Eq) (KeyExpr.evalAll ks : Act ε (List MemberKey)) (KeyExpr.evalAll ks) := by
  induction ks generalizing w with
  | nil => exact agree_pure rfl
  | cons k ks ih =>
    refine agree_bind (agree_key k) fun w₁ _ _ _ h => ?_
    refine agree_bind ih fun w₂ _ _ _ hs => agree_pure ?_
    rw [h, hs]

lemma agree_mapKeyOf {v u : Value} (h : P.Alike w v u) :
    P.Agree w (fun w => MapKey.Rel (P.keyword w)) (mapKeyOf v) (mapKeyOf u) := by
  unfold mapKeyOf
  rw [h.kind_eq]
  have hk := h.rel_mapKey?
  generalize v.mapKey? = k, u.mapKey? = k' at hk ⊢
  cases hk with
  | some hk => exact agree_pure hk
  | none => exact agree_throw _

mutual

theorem agree_eval {w : W} (h : P.RegistersAlike w regs regs') :
    ∀ e : Expr, P.Agree w P.Alike (e.eval regs) (e.eval regs')
  | .nil => agree_pure .nil
  | .null => agree_pure .null
  | .bool b => agree_pure (.bool b)
  | .int n => agree_pure (.int n)
  | .float x => agree_pure (.float x)
  | .str s => agree_pure (.str s)
  | .repeated s times => agree_pure (.str _)
  | .keyword name => agree_bind (agree_intern name) fun _ _ _ _ hk => agree_pure (.keyword hk)
  | .list items => agree_bind (agree_items h items) fun _ _ _ _ hv => agree_newList hv
  | .object members => by
    refine agree_bind (agree_members h members) fun _ ms ns _ hm => ?_
    exact agree_newObject (Entries.distinct_ofList ms) (Entries.distinct_ofList ns)
      (Entries.rel_ofList biUnique_eq hm)
  | .map entries => by
    refine agree_bind (agree_entries h entries) fun w₁ es fs _ he => ?_
    exact agree_newMap (Entries.distinct_ofList es) (Entries.distinct_ofList fs)
      (Entries.rel_ofList (MapKey.Rel.biUnique (P.biUnique_keyword w₁)) he)
  | .function name code => by
    refine agree_bind (agree_code h code) fun w₁ c d _ hc => ?_
    refine agree_bind (agree_fresh (.native name c) (.native name d) trivial trivial
      (.native name hc)) fun w₂ i j hw₂ ht => ?_
    exact agree_pure (.native ht (P.code_mono hw₂ hc))
  | .register name => by
    unfold Expr.eval
    have hv := Entries.rel_get? biUnique_eq (k := name) rfl h
    generalize Entries.get? name regs = o, Entries.get? name regs' = o' at hv ⊢
    cases hv with
    | some hv => exact agree_pure hv
    | none => exact agree_throw _

theorem agree_items {w : W} (h : P.RegistersAlike w regs regs') :
    ∀ es : List Expr,
      P.Agree w (fun w => Forall₂ (P.Alike w)) (Expr.evalItems regs es) (Expr.evalItems regs' es)
  | [] => agree_pure .nil
  | e :: es => by
    refine agree_bind (agree_eval h e) fun w₁ _ _ hw₁ hv => ?_
    refine agree_bind (agree_items (P.members_mono hw₁ h) es) fun w₂ _ _ hw₂ hvs => ?_
    exact agree_pure (.cons (P.alike_mono hw₂ hv) hvs)

theorem agree_members {w : W} (h : P.RegistersAlike w regs regs') :
    ∀ es : List (String × Expr), P.Agree w (fun w => Forall₂ (Pair.Rel Eq (P.Alike w)))
      (Expr.evalMembers regs es) (Expr.evalMembers regs' es)
  | [] => agree_pure .nil
  | (k, e) :: es => by
    refine agree_bind (agree_eval h e) fun w₁ _ _ hw₁ hv => ?_
    refine agree_bind (agree_members (P.members_mono hw₁ h) es) fun w₂ _ _ hw₂ hvs => ?_
    exact agree_pure (.cons (.mk rfl (P.alike_mono hw₂ hv)) hvs)

theorem agree_entries {w : W} (h : P.RegistersAlike w regs regs') :
    ∀ es : List (Expr × Expr),
      P.Agree w (fun w => Forall₂ (Pair.Rel (MapKey.Rel (P.keyword w)) (P.Alike w)))
        (Expr.evalEntries regs es) (Expr.evalEntries regs' es)
  | [] => agree_pure .nil
  | (k, e) :: es => by
    refine agree_bind (agree_eval h k) fun w₁ _ _ hw₁ hk => ?_
    refine agree_bind (agree_mapKeyOf hk) fun w₂ _ _ hw₂ hk => ?_
    have h₂ := P.members_mono (hw₁.trans hw₂) h
    refine agree_bind (agree_eval h₂ e) fun w₃ _ _ hw₃ hv => ?_
    refine agree_bind (agree_entries (P.members_mono hw₃ h₂) es) fun w₄ _ _ hw₄ hvs => ?_
    exact agree_pure (.cons (.mk (P.mapKey_mono (hw₃.trans hw₄) hk) (P.alike_mono hw₄ hv)) hvs)

theorem agree_code {w : W} (h : P.RegistersAlike w regs regs') :
    ∀ code : Code KeyExpr Expr, P.Agree w (fun w => Code.Rel (P.Alike w))
      (Expr.evalCode regs code) (Expr.evalCode regs' code)
  | .this => agree_pure .this
  | .args => agree_pure .args
  | .sum => agree_pure .sum
  | .const e => agree_bind (agree_eval h e) fun _ _ _ _ hv => agree_pure (.const hv)
  | .fail key => agree_bind (agree_key key) fun _ _ _ _ hk => agree_pure (hk ▸ .fail _)
  | .path keys => agree_bind (agree_keys keys) fun _ _ _ _ hk => agree_pure (hk ▸ .path _)
  | .pathArg keys => agree_bind (agree_keys keys) fun _ _ _ _ hk => agree_pure (hk ▸ .pathArg _)
  | .send key => agree_bind (agree_key key) fun _ _ _ _ hk => agree_pure (hk ▸ .send _)
  | .apply => agree_pure .apply

end

/-! ### Commands that make a value -/

lemma agree_wrapOnce (wr : Wrapper) {v u : Value} (h : P.Alike w v u) :
    P.Agree w P.Alike (wr.once v : Act ε Value) (wr.once u) := by
  cases wr with
  | list => exact agree_newList (.cons h .nil)
  | object key =>
    exact agree_newObject (List.nodup_singleton key) (List.nodup_singleton key)
      (.cons (.mk rfl h) .nil)
  | map key =>
    exact agree_newMap (List.nodup_singleton (MapKey.str key))
      (List.nodup_singleton (MapKey.str key)) (.cons (.mk (.str key) h) .nil)

lemma agree_wrap (wr : Wrapper) (times : Nat) {v u : Value} (h : P.Alike w v u) :
    P.Agree w P.Alike (wr.times times v : Act ε Value) (wr.times times u) := by
  induction times generalizing w v u with
  | zero => exact agree_pure h
  | succ n ih => exact agree_bind (agree_wrapOnce wr h) fun _ _ _ _ h => ih h

lemma agree_functionOf {v u : Value} (h : P.Alike w v u) :
    P.Agree w (fun w f g => P.Alike w (.function f) (.function g)) (functionOf v)
      (functionOf u) := by
  cases h with
  | native h hc => exact agree_pure (.native h hc)
  | bound h hf hr => exact agree_pure (.bound h hf hr)
  | builtin h hr => exact agree_pure (.builtin h hr)
  | _ => exact agree_throw _

lemma agree_membersOf {v u : Value} (h : P.Alike w v u) :
    P.Agree w (fun w => Forall₂ (Pair.Rel Eq (P.Alike w))) (membersOf v) (membersOf u) := by
  cases h with
  | object _ hm => exact agree_pure hm
  | _ => exact agree_throw _

lemma agree_newListOf {o o' : Option (List Value)} (h : Option.Rel (Forall₂ (P.Alike w)) o o') :
    P.Agree w (fun w => Option.Rel (P.Alike w)) (newListOf o : Act ε (Option Value))
      (newListOf o') := by
  cases h with
  | some h => exact agree_bind (agree_newList h) fun _ _ _ _ h => agree_pure (.some h)
  | none => exact agree_pure .none

lemma agree_newEntries {ms ns : List (String × Value)}
    (h : Forall₂ (Pair.Rel Eq (P.Alike w)) ms ns) :
    P.Agree w P.Alike (Value.newEntries ms : Act ε Value) (Value.newEntries ns) :=
  agree_bind (agree_newPairs (rel_memberPairs h)) fun _ _ _ _ h => agree_newList h

lemma agree_hostIntern (h : Host String) :
    P.Agree w (fun w a b => P.Alike w a.toValue b.toValue) (h.intern : Act ε (Host Keyword))
      h.intern := by
  induction h generalizing w with
  | unit => exact agree_pure .nil
  | bool b => exact agree_pure (.bool b)
  | int32 n => exact agree_pure (.int _)
  | int64 n => exact agree_pure (.int n)
  | size n => exact agree_pure (.int _)
  | float x => exact agree_pure (.float x)
  | text s => exact agree_pure (.str s)
  | keyword name => exact agree_bind (agree_intern name) fun _ _ _ _ hk => agree_pure (.keyword hk)
  | absent => exact agree_pure .null
  | present h ih => exact agree_bind ih fun _ _ _ _ hv => agree_pure hv

/-- The value that a computation makes, if it always makes one. -/
lemma agree_some {act act' : Act ε Value} (h : P.Agree w P.Alike act act') :
    P.Agree w (fun w => Option.Rel (P.Alike w)) (do return some (← act))
      (do return some (← act')) :=
  agree_bind h fun _ _ _ _ h => agree_pure (.some h)

/-- **Commands agree** on the value that they make, if they make one. -/
theorem agree_make (depth : Nat) (h : P.RegistersAlike w regs regs') (m : Make) :
    P.Agree w (fun w => Option.Rel (P.Alike w)) (m.run depth regs) (m.run depth regs') := by
  cases m with
  | expr e => exact agree_some (agree_eval h e)
  | member base key =>
    refine agree_bind (agree_eval h base) fun w₁ v u _ hv => ?_
    refine agree_bind (agree_key key) fun w₂ k _ hw₂ hk => ?_
    subst hk
    exact agree_some (agree_mapError _ (agree_member (P.alike_mono hw₂ hv) k))
  | nilMember key =>
    refine agree_bind (agree_key key) fun w₁ k _ _ hk => ?_
    subst hk
    exact agree_some (agree_mapError _ (agree_nilMember k))
  | call fn args =>
    refine agree_bind (agree_eval h fn) fun w₁ v u hw₁ hv => ?_
    refine agree_bind (agree_functionOf hv) fun w₂ f g hw₂ hf => ?_
    have h₂ := P.members_mono (hw₁.trans hw₂) h
    refine agree_bind (agree_items h₂ args) fun w₃ vs us hw₃ hvs => ?_
    exact agree_some (agree_mapError _ (agree_call depth (P.alike_mono hw₃ hf) hvs))
  | bind fn target =>
    refine agree_bind (agree_eval h fn) fun w₁ v u hw₁ hv => ?_
    refine agree_bind (agree_functionOf hv) fun w₂ f g hw₂ hf => ?_
    have h₂ := P.members_mono (hw₁.trans hw₂) h
    refine agree_bind (agree_eval h₂ target) fun w₃ r s hw₃ hr => ?_
    refine agree_bind (agree_bind_function (P.alike_mono hw₃ hf) hr) fun w₄ f g _ hf => ?_
    exact agree_pure (.some hf)
  | receiver fn =>
    refine agree_bind (agree_eval h fn) fun w₁ v u hw₁ hv => ?_
    refine agree_bind (agree_functionOf hv) fun w₂ f g hw₂ hf => agree_pure ?_
    cases hf with
    | native => exact .none
    | bound _ _ hr => exact .some hr
    | builtin _ hr => exact .some hr
  | item list index =>
    refine agree_bind (agree_eval h list) fun w₁ v u hw₁ hv => agree_pure ?_
    have hi := hv.rel_items?
    generalize v.items? = o, u.items? = o' at hi ⊢
    cases hi with
    | some hi => exact rel_getElem? hi index
    | none => exact .none
  | own object name =>
    refine agree_bind (agree_eval h object) fun w₁ v u hw₁ hv => ?_
    refine agree_bind (agree_membersOf hv) fun w₂ ms ns hw₂ hm => agree_pure ?_
    exact Entries.rel_get? biUnique_eq rfl hm
  | entries object =>
    refine agree_bind (agree_eval h object) fun w₁ v u hw₁ hv => ?_
    refine agree_bind (agree_membersOf hv) fun w₂ ms ns hw₂ hm => ?_
    exact agree_some (agree_newEntries hm)
  | keys record =>
    exact agree_bind (agree_eval h record) fun _ _ _ _ hv => agree_newListOf (rel_recordKeys? hv)
  | values record =>
    exact agree_bind (agree_eval h record) fun _ _ _ _ hv => agree_newListOf (rel_recordValues? hv)
  | wrap wr times e =>
    exact agree_bind (agree_eval h e) fun _ _ _ _ hv => agree_some (agree_wrap wr times hv)
  | host x => exact agree_bind (agree_hostIntern x) fun _ _ _ _ hv => agree_pure (.some hv)
  | copy object =>
    refine agree_bind (agree_eval h object) fun w₁ v u _ hv => ?_
    cases hv with
    | object h hm =>
      obtain ⟨hd, hd'⟩ := P.tie_valid h
      exact agree_some (agree_newObject hd hd' hm)
    | _ => exact agree_throw _

end Pairing

end ObjectModel
