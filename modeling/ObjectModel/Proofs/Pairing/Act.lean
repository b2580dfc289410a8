import Mathlib
import ObjectModel.Call
import ObjectModel.Proofs.Pairing.Alike
import ObjectModel.Proofs.Reading
import ObjectModel.Startup

/-!
Two runs side by side.

A `Pairing` says which processes belong together, in worlds that only grow, and keeps them together
through the things that a process can do: give out an identity, register a name, report a failed
read, take a subscriber and report a start. Then whatever two processes compute from alike values
ends alike, or with the same error in both.
-/

namespace ObjectModel

open List (Forall₂)
open Relator

/-- What keeps two runs together. In a world of `W` it is known which identities and which keywords
of one run stand for which of the other. -/
structure Pairing (W : Type) [Preorder W] where
  Joins : W → Process → Process → Prop
  tie : W → Tie
  keyword : W → Keyword → Keyword → Prop
  tie_mono {w w'} (h : w ≤ w') {i c j d} : tie w i c j d → tie w' i c j d
  keyword_mono {w w'} (h : w ≤ w') {j k} : keyword w j k → keyword w' j k
  tie_valid {w i c j d} : tie w i c j d → c.Valid ∧ d.Valid
  biUnique_tie (w) : BiUnique (tie w).ids
  biUnique_keyword (w) : BiUnique (keyword w)
  nameOf_eq {w p q j k} : Joins w p q → keyword w j k → p.registry.nameOf j = q.registry.nameOf k
  fresh {w p q c d} : Joins w p q → c.Valid → d.Valid → c.Alike (tie w) (keyword w) d →
    ∃ w', w ≤ w' ∧ Joins w' p.fresh.2 q.fresh.2 ∧ tie w' p.next c q.next d
  intern {w p q} (name) : Joins w p q →
    ∃ w', w ≤ w' ∧ Joins w' (p.intern name).2 (q.intern name).2 ∧
      keyword w' (p.intern name).1 (q.intern name).1
  nilLookup {w p q} (key) : Joins w p q →
    Joins w (p.emit (.nilLookup key)) (q.emit (.nilLookup key))
  subscribe {w p q} (l ansi) : Joins w p q → Joins w (p.subscribe l ansi) (q.subscribe l ansi)
  initialized {w p q} (n) : Joins w p q →
    Joins w (p.emit (.initialized n p.registry.size)) (q.emit (.initialized n q.registry.size))

namespace Pairing

variable {W : Type} [Preorder W] (P : Pairing W) {w w' : W} {ε ε' α α' β β' : Type}

abbrev Alike (w : W) : Value → Value → Prop := ObjectModel.Alike (P.tie w) (P.keyword w)

lemma alike_mono (h : w ≤ w') {v u : Value} (hv : P.Alike w v u) : P.Alike w' v u :=
  hv.mono (fun _ _ _ _ => P.tie_mono h) fun _ _ => P.keyword_mono h

lemma items_mono (h : w ≤ w') {vs us : List Value} (hv : Forall₂ (P.Alike w) vs us) :
    Forall₂ (P.Alike w') vs us :=
  hv.imp fun _ _ => P.alike_mono h

lemma members_mono (h : w ≤ w') {ms ns : List (String × Value)}
    (hm : Forall₂ (Pair.Rel Eq (P.Alike w)) ms ns) : Forall₂ (Pair.Rel Eq (P.Alike w')) ms ns :=
  hm.imp fun _ _ => Pair.Rel.imp (fun _ _ => id) fun _ _ => P.alike_mono h

lemma mapKey_mono (h : w ≤ w') {a b : MapKey Keyword} (hab : a.Rel (P.keyword w) b) :
    a.Rel (P.keyword w') b :=
  hab.imp fun _ _ => P.keyword_mono h

lemma entries_mono (h : w ≤ w') {es fs : List (MapKey Keyword × Value)}
    (he : Forall₂ (Pair.Rel (MapKey.Rel (P.keyword w)) (P.Alike w)) es fs) :
    Forall₂ (Pair.Rel (MapKey.Rel (P.keyword w')) (P.Alike w')) es fs :=
  he.imp fun _ _ => Pair.Rel.imp (fun _ _ => P.mapKey_mono h) fun _ _ => P.alike_mono h

lemma code_mono {κ : Type} (h : w ≤ w') {c d : Code κ Value} (hc : c.Rel (P.Alike w) d) :
    c.Rel (P.Alike w') d :=
  hc.imp fun _ _ => P.alike_mono h

/-- Both computations end in a later world, with related results or with the same error. -/
inductive Ends (A : W → α → α' → Prop) (w : W) :
    EStateM.Result ε Process α → EStateM.Result ε Process α' → Prop where
  | ok {w' : W} {a : α} {b : α'} {p q : Process} (hw : w ≤ w') (hj : P.Joins w' p q)
      (h : A w' a b) : Ends A w (.ok a p) (.ok b q)
  | error {w' : W} {e : ε} {p q : Process} (hw : w ≤ w') (hj : P.Joins w' p q) :
      Ends A w (.error e p) (.error e q)

lemma Ends.later {P : Pairing W} {A : W → α → α' → Prop} (h : w ≤ w')
    {x : EStateM.Result ε Process α} {y : EStateM.Result ε Process α'} (he : P.Ends A w' x y) :
    P.Ends A w x y := by
  cases he with
  | ok hw hj ha => exact .ok (h.trans hw) hj ha
  | error hw hj => exact .error (h.trans hw) hj

/-- From processes that belong together the computations end together. -/
def Agree (w : W) (A : W → α → α' → Prop) (act : Act ε α) (act' : Act ε α') : Prop :=
  ∀ p q, P.Joins w p q → P.Ends A w (act p) (act' q)

variable {P} {A A' : W → α → α' → Prop} {B : W → β → β' → Prop}

lemma Agree.imp {act : Act ε α} {act' : Act ε α'} (h : P.Agree w A act act')
    (hA : ∀ w a b, A w a b → A' w a b) : P.Agree w A' act act' := by
  intro p q hj
  have he := h p q hj
  generalize act p = x, act' q = y at he ⊢
  cases he with
  | ok hw hj ha => exact .ok hw hj (hA _ _ _ ha)
  | error hw hj => exact .error hw hj

/-! ### Rules -/

lemma agree_pure {a : α} {b : α'} (h : A w a b) : P.Agree w A (pure a : Act ε α) (pure b) :=
  fun _ _ hj => .ok le_rfl hj h

lemma agree_throw (e : ε) : P.Agree w A (throw e : Act ε α) (throw e) :=
  fun _ _ hj => .error le_rfl hj

lemma agree_bind {act : Act ε α} {act' : Act ε α'} {f : α → Act ε β} {f' : α' → Act ε β'}
    (h : P.Agree w A act act')
    (hf : ∀ w' a b, w ≤ w' → A w' a b → P.Agree w' B (f a) (f' b)) :
    P.Agree w B (act >>= f) (act' >>= f') := by
  intro p q hj
  rw [Act.bind_apply, Act.bind_apply]
  have he := h p q hj
  generalize act p = x, act' q = y at he ⊢
  cases he with
  | error hw hj => exact .error hw hj
  | ok hw hj ha => exact (hf _ _ _ hw ha _ _ hj).later hw

lemma agree_mapError (f : ε → ε') {act : Act ε α} {act' : Act ε α'} (h : P.Agree w A act act') :
    P.Agree w A (act.mapError f) (act'.mapError f) := by
  intro p q hj
  rw [Act.mapError_apply, Act.mapError_apply]
  have he := h p q hj
  generalize act p = x, act' q = y at he ⊢
  cases he with
  | ok hw hj ha => exact .ok hw hj ha
  | error hw hj => exact .error hw hj

/-! ### What a process does -/

lemma agree_fresh (c d : Creation) (hc : c.Valid) (hd : d.Valid)
    (h : c.Alike (P.tie w) (P.keyword w) d) :
    P.Agree w (fun w i j => P.tie w i c j d) (Act.fresh : Act ε Ident) Act.fresh := by
  intro p q hj
  obtain ⟨w', hw, hj', ht⟩ := P.fresh hj hc hd h
  exact .ok hw hj' ht

lemma agree_intern (name : String) :
    P.Agree w P.keyword (Act.intern name : Act ε Keyword) (Act.intern name) := by
  intro p q hj
  obtain ⟨w', hw, hj', hk⟩ := P.intern name hj
  exact .ok hw hj' hk

/-- The registries read in both runs give related keywords one name. -/
lemma agree_registry :
    P.Agree w (fun w r r' => ∀ j k, P.keyword w j k → r.nameOf j = r'.nameOf k)
      (Act.registry : Act ε Registry) Act.registry :=
  fun _ _ hj => .ok le_rfl hj fun _ _ => P.nameOf_eq hj

lemma agree_internAll (names : List String) :
    P.Agree w (fun w => Forall₂ (P.keyword w)) (Act.internAll names : Act ε (List Keyword))
      (Act.internAll names) := by
  induction names generalizing w with
  | nil => exact agree_pure .nil
  | cons name names ih =>
    refine agree_bind (agree_intern name) fun w₁ j k hw₁ hjk => ?_
    refine agree_bind ih fun w₂ js ks hw₂ h => ?_
    exact agree_pure (.cons (P.keyword_mono hw₂ hjk) h)

lemma agree_start (s : Settings) :
    P.Agree w (fun w => Forall₂ (P.keyword w)) s.start s.start := by
  unfold Settings.start
  split
  · exact agree_throw _
  next level _ =>
    refine agree_bind (A := fun _ _ _ => True) ?_ fun w₁ _ _ _ _ => ?_
    · exact fun p q hj => .ok le_rfl (P.subscribe level s.logAnsi hj) trivial
    refine agree_bind (agree_internAll _) fun w₂ js ks hw₂ h => ?_
    -- the report holds the sizes of the registries, which need not be equal
    intro p q hj
    refine .ok le_rfl ?_ h
    rw [h.length_eq]
    exact P.initialized _ hj

end Pairing

end ObjectModel
