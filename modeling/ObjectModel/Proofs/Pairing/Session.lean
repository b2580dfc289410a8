import Mathlib
import ObjectModel.Proofs.Pairing.Script
import ObjectModel.Proofs.RegisterUse
import ObjectModel.Script.Session

/-!
What a script observes in two runs side by side, and whole sessions. Main statement: the sessions
stay together, and a command that does not ask what is registered has the same answer in both
(`Pairing.session_run`).
-/

namespace ObjectModel

open List (Forall₂)
open Relator
open Script

namespace Script

/-- Whether the answer depends on which names have been registered before. -/
def Observe.asksRegistry : Observe → Bool
  | findKeyword _ => true
  | _ => false

def Command.asksRegistry : Command → Bool
  | make _ _ _ => false
  | observe o => o.asksRegistry

/-- Related values are written to related registers. -/
lemma rel_write {V : Value → Value → Prop} {regs regs' : Registers} {v u : Option Value}
    (h : Forall₂ (Pair.Rel Eq V) regs regs') (hv : Option.Rel V v u) (into : Option String) :
    Forall₂ (Pair.Rel Eq V) (regs.write into v) (regs'.write into u) := by
  cases into with
  | none => exact h
  | some name =>
    cases hv with
    | some hv => exact Entries.rel_insert biUnique_eq rfl hv h
    | none => exact h

end Script

namespace Pairing

variable {W : Type} [Preorder W] {P : Pairing W} {w : W} {ε : Type} {regs regs' : Registers}

/-! ### Looking at values -/

lemma agree_shapeOf {v u : Value} (h : P.Alike w v u) :
    P.Agree w (fun _ => Eq) (shapeOf v : Act ε Shape) (shapeOf u) :=
  agree_bind agree_registry fun _ _ _ hw hn => agree_pure ((P.alike_mono hw h).shape_eq hn)

lemma agree_shapesOf {vs us : List Value} (h : Forall₂ (P.Alike w) vs us) :
    P.Agree w (fun _ => Eq) (shapesOf vs : Act ε (List Shape)) (shapesOf us) := by
  refine agree_bind agree_registry fun w₁ r r' hw hn => agree_pure ?_
  rw [Value.shapes_eq_map, Value.shapes_eq_map]
  exact map_eq_of_forall₂ (fun _ _ h => h.shape_eq hn) (P.items_mono hw h)

lemma agree_recordAnswer {ks ks' vs vs' : List Value} (hk : Forall₂ (P.Alike w) ks ks')
    (hv : Forall₂ (P.Alike w) vs vs') :
    P.Agree w (fun _ => Eq) (do return .record (← shapesOf ks) (← shapesOf vs) : Act ε Answer)
      (do return .record (← shapesOf ks') (← shapesOf vs')) := by
  refine agree_bind (agree_shapesOf hk) fun w₁ _ _ hw hks => ?_
  refine agree_bind (agree_shapesOf (P.items_mono hw hv)) fun w₂ _ _ _ hvs => agree_pure ?_
  rw [hks, hvs]

lemma inspection_eq {v u : Value} (h : P.Alike w v u) {r r' : Registry}
    (hn : ∀ j k, P.keyword w j k → r.nameOf j = r'.nameOf k) :
    inspection r v = inspection r' u := by
  cases h with
  | keyword h =>
    simp only [inspection, Value.keyword?, Option.map_some, hn _ _ h]
    rfl
  | list _ hi =>
    simp only [inspection, Value.items?, Option.map_some, hi.length_eq]
    rfl
  | object _ hm =>
    simp only [inspection, Value.members?, Option.map_some, hm.length_eq]
    rfl
  | map _ he =>
    simp only [inspection, Value.entries?, Option.map_some, he.length_eq]
    rfl
  | _ => rfl

lemma same_eq {v u v' u' : Value} (h : P.Alike w v u) (h' : P.Alike w v' u') :
    (v == v') = (u == u') :=
  h.same_eq (P.biUnique_tie w) (P.biUnique_keyword w) h'

lemma sameItems_eq {vs us vs' us' : List Value} (h : Forall₂ (P.Alike w) vs us)
    (h' : Forall₂ (P.Alike w) vs' us') : Value.sameItems vs vs' = Value.sameItems us us' := by
  induction h generalizing vs' us' with
  | nil => cases h' <;> rfl
  | cons hv _ ih =>
    cases h' with
    | nil => rfl
    | cons hv' h' => rw [Value.sameItems, Value.sameItems, same_eq hv hv', ih h']

/-- A pass over alike members takes the same shapes and leaves as much. -/
lemma steps_eq {names names' : Keyword → String}
    (hn : ∀ j k, P.keyword w j k → names j = names' k) (n : Nat) (c c' : Cursor)
    (h : Forall₂ (Pair.Rel Eq (P.Alike w)) c.rest c'.rest) :
    takenShapes names (c.steps n).1 = takenShapes names' (c'.steps n).1 ∧
      (c.steps n).2.left = (c'.steps n).2.left := by
  induction n generalizing c c' with
  | zero => exact ⟨rfl, h.length_eq⟩
  | succ n ih =>
    obtain ⟨ms⟩ := c
    obtain ⟨ns⟩ := c'
    cases h with
    | nil =>
      obtain ⟨hs, hl⟩ := ih ⟨[]⟩ ⟨[]⟩ .nil
      simp only [takenShapes] at hs
      refine ⟨?_, hl⟩
      simp only [takenShapes, Cursor.steps, Cursor.next, List.map_cons, Option.map_none, hs]
    | cons hm h =>
      obtain ⟨rfl, hv⟩ := hm
      obtain ⟨hs, hl⟩ := ih ⟨_⟩ ⟨_⟩ h
      simp only [takenShapes] at hs
      refine ⟨?_, hl⟩
      simp only [takenShapes, Cursor.steps, Cursor.next, List.map_cons, Option.map_some, hs,
        hv.shape_eq hn, Cursor.left, h.length_eq]

lemma agree_internKey (key : MapKey String) :
    P.Agree w (fun w => MapKey.Rel (P.keyword w)) (internKey key : Act ε (MapKey Keyword))
      (internKey key) := by
  cases key with
  | str s => exact agree_pure (.str s)
  | int n => exact agree_pure (.int n)
  | bool b => exact agree_pure (.bool b)
  | keyword name => exact agree_bind (agree_intern name) fun _ _ _ _ hk => agree_pure (.keyword hk)

lemma agree_read (source : Source) : P.Agree w (fun _ => Eq) source.read source.read := by
  unfold Source.read
  split
  · split
    · exact agree_pure rfl
    · exact agree_throw _
  · exact agree_pure rfl

/-! ### Answers -/

/-- **Observations agree**, unless they ask what is registered. -/
theorem agree_observe (h : P.RegistersAlike w regs regs') (o : Observe)
    (ho : o.asksRegistry = false) : P.Agree w (fun _ => Eq) (o.run regs) (o.run regs') := by
  cases o with
  | equal a b =>
    refine agree_bind (agree_eval h a) fun w₁ _ _ hw₁ ha => ?_
    refine agree_bind (agree_eval (P.members_mono hw₁ h) b) fun w₂ _ _ hw₂ hb => agree_pure ?_
    rw [same_eq (P.alike_mono hw₂ ha) hb]
  | equalItems a b =>
    refine agree_bind (agree_eval h a) fun w₁ va ua hw₁ ha => ?_
    refine agree_bind (agree_eval (P.members_mono hw₁ h) b) fun w₂ vb ub hw₂ hb => agree_pure ?_
    have hia := (P.alike_mono hw₂ ha).rel_items?
    have hib := hb.rel_items?
    generalize va.items? = o₁, ua.items? = o₂ at hia ⊢
    generalize vb.items? = o₃, ub.items? = o₄ at hib ⊢
    cases hia with
    | none => cases hib <;> rfl
    | some hia =>
      cases hib with
      | none => rfl
      | some hib => exact congrArg Answer.equalItems (sameItems_eq hia hib)
  | display e =>
    refine agree_bind (agree_eval h e) fun w₁ _ _ _ hv => ?_
    exact agree_bind (agree_shapeOf hv) fun _ _ _ _ hs => agree_pure (hs ▸ rfl)
  | debug e =>
    refine agree_bind (agree_eval h e) fun w₁ _ _ _ hv => ?_
    exact agree_bind (agree_shapeOf hv) fun _ _ _ _ hs => agree_pure (hs ▸ rfl)
  | pretty e =>
    refine agree_bind (agree_eval h e) fun w₁ _ _ _ hv => ?_
    exact agree_bind (agree_shapeOf hv) fun _ _ _ _ hs => agree_pure (hs ▸ rfl)
  | inspect e =>
    refine agree_bind (agree_eval h e) fun w₁ _ _ _ hv => ?_
    refine agree_bind agree_registry fun w₂ r r' hw₂ hn => agree_pure ?_
    rw [inspection_eq (P.alike_mono hw₂ hv) hn]
  | object e keys =>
    refine agree_bind (agree_eval h e) fun w₁ _ _ _ hv => ?_
    refine agree_bind (agree_membersOf hv) fun w₂ ms ns _ hm => agree_pure ?_
    have hc : ∀ k, Entries.contains k ms = Entries.contains k ns :=
      fun _ => Entries.rel_contains biUnique_eq rfl hm
    have he : ms.isEmpty = ns.isEmpty := by cases hm <;> rfl
    simp only [hm.length_eq, hc, he]
  | iterate e steps =>
    refine agree_bind (agree_eval h e) fun w₁ _ _ _ hv => ?_
    refine agree_bind (agree_membersOf hv) fun w₂ ms ns _ hm => ?_
    refine agree_bind agree_registry fun w₃ r r' hw₃ hn => agree_pure ?_
    have hm₃ := P.members_mono hw₃ hm
    obtain ⟨hs, hl⟩ := steps_eq hn steps (.start ms) (.start ns) hm₃
    have hk := Entries.rel_keys hm₃
    rw [List.forall₂_eq_eq_eq] at hk
    simp only [hs, hl, hk, Cursor.sizeHint]
  | record e =>
    refine agree_bind (agree_eval h e) fun w₁ _ _ _ hv => ?_
    have hks := rel_recordKeys? hv
    have hvs := rel_recordValues? hv
    cases hv with
    | object _ hm =>
      obtain ⟨hks⟩ := hks
      obtain ⟨hvs⟩ := hvs
      exact agree_recordAnswer hks hvs
    | map _ he =>
      obtain ⟨hks⟩ := hks
      obtain ⟨hvs⟩ := hvs
      exact agree_recordAnswer hks hvs
    | _ => exact agree_throw _
  | hostMap pairs =>
    refine agree_recordAnswer ?_ ?_
    · exact List.forall₂_map_left_iff.2 (List.forall₂_map_right_iff.2
        (List.forall₂_same.2 fun _ _ => .str _))
    · refine List.forall₂_map_left_iff.2 (List.forall₂_map_right_iff.2
        (List.forall₂_same.2 fun e _ => ?_))
      obtain ⟨k, _ | n⟩ := e
      · exact .null
      · exact .int n
  | mapKey e =>
    refine agree_bind (agree_eval h e) fun w₁ v u _ hv => ?_
    have hk := hv.rel_mapKey?
    generalize v.mapKey? = o, u.mapKey? = o' at hk ⊢
    cases hk with
    | none => exact agree_pure rfl
    | some hk =>
      refine agree_bind agree_registry fun w₂ r r' hw₂ hn => ?_
      have hk₂ := P.mapKey_mono hw₂ hk
      refine agree_bind (agree_shapeOf (rel_toValue hk₂)) fun _ _ _ _ hs => agree_pure ?_
      rw [hk₂.map_eq hn, hs]
  | hostKey host other =>
    refine agree_bind (agree_internKey host) fun w₁ j k hw₁ hk => ?_
    refine agree_bind (agree_eval (P.members_mono hw₁ h) other) fun w₂ v u hw₂ hv => ?_
    have hk₂ := P.mapKey_mono hw₂ hk
    refine agree_bind agree_registry fun w₃ r r' hw₃ hn => ?_
    have hk₃ := P.mapKey_mono hw₃ hk₂
    refine agree_bind (agree_shapeOf (rel_toValue hk₃)) fun _ _ _ _ hs => agree_pure ?_
    have hK := biUnique_option (MapKey.Rel.biUnique (P.biUnique_keyword w₂))
    rw [hk₃.map_eq hn, hs, beq_eq_of_biUnique hK hv.rel_mapKey? (.some hk₂)]
  | capability c => exact agree_pure rfl
  | capabilities => exact agree_pure rfl
  | capabilityOf id => exact agree_pure rfl
  | key k => exact agree_bind (agree_key k) fun _ _ _ _ hk => agree_pure (hk ▸ rfl)
  | equalKeys a b =>
    refine agree_bind (agree_key a) fun w₁ _ _ _ ha => ?_
    refine agree_bind (agree_key b) fun w₂ _ _ _ hb => agree_pure ?_
    rw [ha, hb]
  | countKeys keys => exact agree_bind (agree_keys keys) fun _ _ _ _ hk => agree_pure (hk ▸ rfl)
  | keyword name other =>
    refine agree_bind (agree_intern name) fun w₁ j k _ hk => ?_
    refine agree_bind agree_registry fun w₂ r r' hw₂ hn => ?_
    have hk₂ := P.keyword_mono hw₂ hk
    rw [hn _ _ hk₂]
    refine agree_bind (agree_intern _) fun w₃ j' k' hw₃ hk' => ?_
    refine agree_bind (agree_intern other) fun w₄ j'' k'' hw₄ hk'' => agree_pure ?_
    have hK := P.biUnique_keyword w₄
    have hk₄ := P.keyword_mono (hw₃.trans hw₄) hk₂
    rw [beq_eq_of_biUnique hK (P.keyword_mono hw₄ hk') hk₄, beq_eq_of_biUnique hK hk'' hk₄]
  | nilText => exact agree_pure rfl
  | settings source =>
    refine agree_bind (agree_read source) fun w₁ s s' _ hs => ?_
    subst hs
    split
    · exact agree_pure rfl
    · exact agree_throw _
  | findKeyword name => cases ho
  | register name =>
    refine agree_bind (agree_intern name) fun w₁ j k _ hk => ?_
    refine agree_bind agree_registry fun w₂ r r' hw₂ hn => agree_pure ?_
    rw [hn _ _ (P.keyword_mono hw₂ hk)]
  | start source =>
    refine agree_bind (agree_read source) fun w₁ s s' _ hs => ?_
    subst hs
    refine agree_bind (agree_mapError _ (agree_start s)) fun w₂ js ks _ hk => ?_
    refine agree_bind agree_registry fun w₃ r r' hw₃ hn => agree_pure ?_
    rw [map_eq_of_forall₂ (fun _ _ h => hn _ _ (P.keyword_mono hw₃ h)) hk]

/-- An observation leaves the processes together whatever it asks. -/
lemma agree_look (h : P.RegistersAlike w regs regs') (o : Observe) :
    P.Agree w (fun _ a b => o.asksRegistry = false → a = b) (o.run regs) (o.run regs') := by
  by_cases ho : o.asksRegistry = false
  · exact (agree_observe h o ho).imp fun _ _ _ hab _ => hab
  · cases o with
    | findKeyword name =>
      exact agree_bind agree_registry fun _ _ _ _ _ => agree_pure fun h => absurd h ho
    | _ => exact absurd rfl ho

/-! ### Sessions -/

/-- Two sessions whose processes belong together and whose registers hold alike values. -/
structure Together (P : Pairing W) (w : W) (s s' : Session) : Prop where
  joins : P.Joins w s.process s'.process
  registers : P.RegistersAlike w s.registers s'.registers

/-- Outcomes of one command in two runs. -/
structure OutcomesAlike (P : Pairing W) (w : W) (o o' : Outcome) : Prop where
  joins : P.Joins w o.process o'.process
  value : Option.Rel (P.Alike w) o.value o'.value

/-- **One command** has alike outcomes, and the same answer in both. -/
theorem command_outcome (depth : Nat) {p q : Process} (hj : P.Joins w p q)
    (hr : P.RegistersAlike w regs regs') (c : Command) :
    ∃ w', w ≤ w' ∧ P.OutcomesAlike w' (c.outcome depth regs p) (c.outcome depth regs' q) ∧
      (c.asksRegistry = false →
        (c.outcome depth regs p).answer = (c.outcome depth regs' q).answer) := by
  cases c with
  | make m into quiet =>
    have he := agree_make depth hr m _ _ hj
    simp only [Command.outcome]
    generalize m.run depth regs p = x, m.run depth regs' q = y at he ⊢
    cases he with
    | error hw hj => exact ⟨_, hw, ⟨hj, .none⟩, fun _ => rfl⟩
    | ok hw hj ho =>
      cases ho with
      | none => exact ⟨_, hw, ⟨hj, .none⟩, fun _ => rfl⟩
      | some hv =>
        refine ⟨_, hw, ⟨hj, .some hv⟩, fun _ => ?_⟩
        have hs := hv.shape_eq fun j k h => P.nameOf_eq (j := j) (k := k) hj h
        simp only [Answer.ofValue, hv.kind_eq, hs]
  | observe o =>
    have he := agree_look hr o _ _ hj
    simp only [Command.outcome]
    generalize o.run regs p = x, o.run regs' q = y at he ⊢
    cases he with
    | error hw hj => exact ⟨_, hw, ⟨hj, .none⟩, fun _ => rfl⟩
    | ok hw hj ha => exact ⟨_, hw, ⟨hj, .none⟩, ha⟩

/-- It keeps sessions together. -/
lemma command_run (depth : Nat) {s s' : Session} (h : P.Together w s s') (c : Command) :
    ∃ w', w ≤ w' ∧ P.Together w' (c.run depth s).2 (c.run depth s').2 ∧
      (c.asksRegistry = false → (c.run depth s).1 = (c.run depth s').1) := by
  obtain ⟨p, regs⟩ := s
  obtain ⟨q, regs'⟩ := s'
  obtain ⟨hj, hr⟩ := h
  obtain ⟨w', hw, ⟨hj, hv⟩, ha⟩ := command_outcome depth hj hr c
  rw [Command.run_eq, Command.run_eq]
  exact ⟨w', hw, ⟨hj, rel_write (P.members_mono hw hr) hv c.into⟩, ha⟩

/-- **Whole scripts** keep sessions together and have the same answers in both. -/
theorem session_run (depth : Nat) {s s' : Session} (h : P.Together w s s') (cs : List Command) :
    ∃ w', w ≤ w' ∧ P.Together w' (s.run depth cs).2 (s'.run depth cs).2 ∧
      ((∀ c ∈ cs, c.asksRegistry = false) →
        (s.run depth cs).1.map Reply.answer = (s'.run depth cs).1.map Reply.answer) := by
  induction cs generalizing w s s' with
  | nil => exact ⟨w, le_rfl, h, fun _ => rfl⟩
  | cons c cs ih =>
    obtain ⟨w₁, hw₁, h₁, ha⟩ := command_run depth h c
    obtain ⟨w₂, hw₂, h₂, has⟩ := ih h₁
    refine ⟨w₂, hw₁.trans hw₂, h₂, fun hc => ?_⟩
    rw [List.forall_mem_cons] at hc
    rw [Session.run_cons, Session.run_cons, List.map_cons, List.map_cons, ha hc.1, has hc.2]

end Pairing

end ObjectModel
