import Mathlib
import ObjectModel.Proofs.Reporting.Act
import ObjectModel.Proofs.Starting
import ObjectModel.Script.Session

/-!
What a script reports, command by command. A start reports itself; any other command reports the
names that it registers and, if nil refused it a member, that lookup, which is then its answer.
Main statements: `Script.Command.run_reported` for one command and
`Script.Session.subscriber_run` for what becomes of the subscriber.
-/

namespace ObjectModel.Script

open Act
open Process (Notes)

instance : Fails Fault where
  lookup?
    | .lookup e => some e.member
    | _ => none

variable {ε : Type} [Fails ε] {K : Set MemberKey} {regs : Registers}

/-! ### Failures that are written down -/

/-- The key that is written. -/
def KeyExpr.key : KeyExpr → MemberKey
  | name s | keyword s => .name s
  | capability c => .capability c

namespace Expr

mutual

/-- The keys with which functions written in the expression fail. -/
def failures : Expr → List MemberKey
  | .list items => itemFailures items
  | .object members => memberFailures members
  | .map entries => entryFailures entries
  | .function _ code => codeFailures code
  | _ => []

def itemFailures : List Expr → List MemberKey
  | [] => []
  | e :: rest => failures e ++ itemFailures rest

def memberFailures : List (String × Expr) → List MemberKey
  | [] => []
  | (_, e) :: rest => failures e ++ memberFailures rest

def entryFailures : List (Expr × Expr) → List MemberKey
  | [] => []
  | (k, e) :: rest => failures k ++ (failures e ++ entryFailures rest)

def codeFailures : Code KeyExpr Expr → List MemberKey
  | .const e => failures e
  | .fail key => [key.key]
  | _ => []

end

end Expr

def Make.failures : Make → List MemberKey
  | expr e | receiver e | item e _ | own e _ | entries e | keys e | values e | wrap _ _ e
  | copy e | member e _ => e.failures
  | call fn args => fn.failures ++ Expr.itemFailures args
  | bind fn target => fn.failures ++ target.failures
  | nilMember _ | host _ => []

def Observe.failures : Observe → List MemberKey
  | equal a b | equalItems a b => a.failures ++ b.failures
  | display e | debug e | pretty e | inspect e | object e _ | iterate e _ | record e | mapKey e
  | hostKey _ e => e.failures
  | _ => []

def Command.failures : Command → List MemberKey
  | make m _ _ => m.failures
  | observe o => o.failures

/-! ### Expressions -/

/-- What is in the registers fails with no other keys. -/
def Registers.FailsOnly (K : Set MemberKey) (regs : Registers) : Prop :=
  ∀ v ∈ Entries.values regs, v.FailsOnly K

lemma reports_key (k : KeyExpr) : (k.eval : Act ε MemberKey).Reports K (· = k.key) := by
  cases k with
  | keyword s =>
    intro p
    obtain ⟨names, h⟩ := p.notes_intern s
    have he : (KeyExpr.keyword s).eval p =
        (.ok (.name s) (p.intern s).2 : EStateM.Result ε Process MemberKey) := by
      simp only [KeyExpr.eval, bind_apply, intern_apply, registry_apply,
        (p.holds_intern s).nameOf_eq, pure_apply]
    rw [he]
    exact .ok h rfl
  | _ => exact reports_pure rfl

lemma reports_keys (ks : List KeyExpr) :
    (KeyExpr.evalAll ks : Act ε (List MemberKey)).Reports K Any := by
  induction ks with
  | nil => exact reports_pure trivial
  | cons k ks ih => exact (reports_key k).bind fun _ _ => ih.bind fun _ _ => reports_pure trivial

lemma reports_mapKeyOf (v : Value) : (mapKeyOf v).Reports K Any := by
  unfold mapKeyOf
  split
  · exact reports_pure trivial
  · exact reports_throw (by simp [Fails.lookup?])

mutual

theorem reports_eval (hr : regs.FailsOnly K) :
    ∀ e : Expr, (∀ key ∈ e.failures, key ∈ K) → (e.eval regs).Reports K (Value.FailsOnly K)
  | .nil, _ | .null, _ | .bool _, _ | .int _, _ | .float _, _ | .str _, _ | .repeated _ _, _ =>
    reports_pure (Value.failsOnly_of_plain rfl rfl)
  | .keyword name, _ =>
    (reports_intern name).bind fun _ _ => reports_pure (Value.failsOnly_of_plain rfl rfl)
  | .list items, h => (reports_items hr items h).bind fun _ hv => Value.reports_newList hv
  | .object members, h => (reports_members hr members h).bind fun _ hm =>
    Value.reports_newObject fun v hv => hm v (Entries.mem_values_ofList hv)
  | .map entries, h => (reports_entries hr entries h).bind fun _ he =>
    Value.reports_newMap fun v hv => he v (Entries.mem_values_ofList hv)
  | .function name code, h => by
    refine (reports_code hr code h).bind fun c hc => reports_fresh.bind fun i _ => ?_
    refine reports_pure (Value.failsOnly_of_parts hc.1 fun u hu => hc.2 u ?_)
    exact (List.mem_append.1 (show u ∈ c.captured ++ [] from hu)).resolve_right List.not_mem_nil
  | .register name, _ => by
    unfold Expr.eval
    split
    · next hv => exact reports_pure (hr _ (Entries.mem_values_of_get? hv))
    · exact reports_throw (by simp [Fails.lookup?])

theorem reports_items (hr : regs.FailsOnly K) :
    ∀ es : List Expr, (∀ key ∈ Expr.itemFailures es, key ∈ K) →
      (Expr.evalItems regs es).Reports K fun vs => ∀ v ∈ vs, v.FailsOnly K
  | [], _ => reports_pure (by simp)
  | e :: es, h => by
    obtain ⟨he, hes⟩ := List.forall_mem_append.1 h
    refine (reports_eval hr e he).bind fun v hv => (reports_items hr es hes).bind fun vs hvs => ?_
    exact reports_pure (List.forall_mem_cons.2 ⟨hv, hvs⟩)

theorem reports_members (hr : regs.FailsOnly K) :
    ∀ es : List (String × Expr), (∀ key ∈ Expr.memberFailures es, key ∈ K) →
      (Expr.evalMembers regs es).Reports K fun ms => ∀ v ∈ Entries.values ms, v.FailsOnly K
  | [], _ => reports_pure (by simp [Entries.values])
  | (_, e) :: es, h => by
    obtain ⟨he, hes⟩ := List.forall_mem_append.1 h
    refine (reports_eval hr e he).bind fun v hv => (reports_members hr es hes).bind fun ms hms => ?_
    exact reports_pure (List.forall_mem_cons.2 ⟨hv, hms⟩)

theorem reports_entries (hr : regs.FailsOnly K) :
    ∀ es : List (Expr × Expr), (∀ key ∈ Expr.entryFailures es, key ∈ K) →
      (Expr.evalEntries regs es).Reports K fun ms => ∀ v ∈ Entries.values ms, v.FailsOnly K
  | [], _ => reports_pure (by simp [Entries.values])
  | (k, e) :: es, h => by
    obtain ⟨hk, h⟩ := List.forall_mem_append.1 h
    obtain ⟨he, hes⟩ := List.forall_mem_append.1 h
    refine (reports_eval hr k hk).bind fun u _ => (reports_mapKeyOf u).bind fun _ _ => ?_
    refine (reports_eval hr e he).bind fun v hv => (reports_entries hr es hes).bind fun ms hms => ?_
    exact reports_pure (List.forall_mem_cons.2 ⟨hv, hms⟩)

theorem reports_code (hr : regs.FailsOnly K) :
    ∀ code : Code KeyExpr Expr, (∀ key ∈ Expr.codeFailures code, key ∈ K) →
      (Expr.evalCode regs code).Reports K fun c =>
        (∀ key ∈ c.failure?, key ∈ K) ∧ ∀ v ∈ c.captured, v.FailsOnly K
  | .this, _ | .args, _ | .sum, _ | .apply, _ =>
    reports_pure ⟨by simp [Code.failure?], by simp [Code.captured]⟩
  | .const e, h => (reports_eval hr e h).bind fun v hv =>
    reports_pure ⟨by simp [Code.failure?], by simpa [Code.captured] using hv⟩
  | .fail key, h => (reports_key key).bind fun k hk => by
    subst hk
    exact reports_pure ⟨by simpa [Code.failure?] using h _ List.mem_cons_self,
      by simp [Code.captured]⟩
  | .send key, _ => (reports_key key).bind fun _ _ =>
    reports_pure ⟨by simp [Code.failure?], by simp [Code.captured]⟩
  | .path keys, _ | .pathArg keys, _ => (reports_keys keys).bind fun _ _ =>
    reports_pure ⟨by simp [Code.failure?], by simp [Code.captured]⟩

end

/-! ### Commands that make a value -/

lemma reports_functionOf {v : Value} (hv : v.FailsOnly K) :
    (functionOf v).Reports K fun f => (Value.function f).FailsOnly K := by
  cases v with
  | function f => exact reports_pure hv
  | _ => exact reports_throw (by simp [Fails.lookup?])

lemma reports_membersOf {v : Value} (hv : v.FailsOnly K) :
    (membersOf v).Reports K fun ms => ∀ u ∈ Entries.values ms, u.FailsOnly K := by
  cases v with
  | object id members => exact reports_pure fun _ => hv.of_mem_parts
  | _ => exact reports_throw (by simp [Fails.lookup?])

lemma reports_newListOf {items : Option (List Value)}
    (h : ∀ vs ∈ items, ∀ v ∈ vs, v.FailsOnly K) :
    (newListOf items : Act ε (Option Value)).Reports K fun o => ∀ v ∈ o, v.FailsOnly K := by
  cases items with
  | some items => exact (Value.reports_newList (h items rfl)).bind fun v hv =>
      reports_pure (by simpa using hv)
  | none => exact reports_pure (by simp)

lemma reports_wrap (w : Wrapper) (times : Nat) {v : Value} (hv : v.FailsOnly K) :
    (w.times times v : Act ε Value).Reports K (Value.FailsOnly K) := by
  induction times generalizing v with
  | zero => exact reports_pure hv
  | succ n ih =>
    have ho : (w.once v : Act ε Value).Reports K (Value.FailsOnly K) := by
      cases w with
      | list => exact Value.reports_newList (by simpa using hv)
      | object key => exact Value.reports_newObject (by simpa [Entries.values] using hv)
      | map key => exact Value.reports_newMap (by simpa [Entries.values] using hv)
    exact ho.bind fun u hu => ih hu

lemma reports_host (h : Host String) : (h.intern : Act ε (Host Keyword)).Reports K Any := by
  induction h with
  | keyword name => exact (reports_intern name).bind fun _ _ => reports_pure trivial
  | present h ih => exact ih.bind fun _ _ => reports_pure trivial
  | _ => exact reports_pure trivial

lemma failsOnly_host (h : Host Keyword) : h.toValue.FailsOnly K := by
  induction h with
  | present h ih => exact ih
  | _ => exact Value.failsOnly_of_plain rfl rfl

lemma reports_some {act : Act ε Value} (h : act.Reports K (Value.FailsOnly K)) :
    (do return some (← act) : Act ε (Option Value)).Reports K fun o => ∀ v ∈ o, v.FailsOnly K :=
  h.bind fun v hv => reports_pure (by simpa using hv)

lemma reports_make (depth : Nat) (hr : regs.FailsOnly K) (m : Make)
    (hm : ∀ key ∈ m.failures, key ∈ K) :
    (m.run depth regs).Reports K fun o => ∀ v ∈ o, v.FailsOnly K := by
  cases m with
  | expr e => exact reports_some (reports_eval hr e hm)
  | member base key =>
    refine (reports_eval hr base hm).bind fun v hv => (reports_key key).bind fun k _ => ?_
    exact reports_some ((Value.reports_member hv k).mapError Fault.lookup fun _ => rfl)
  | nilMember key =>
    refine (reports_key key).bind fun k _ => ?_
    exact reports_some ((ObjectModel.reports_nilMember k).mapError Fault.lookup fun _ => rfl)
  | call fn args =>
    obtain ⟨hf, ha⟩ := List.forall_mem_append.1 hm
    refine (reports_eval hr fn hf).bind fun v hv => (reports_functionOf hv).bind fun f hf => ?_
    refine (reports_items hr args ha).bind fun vs hvs => ?_
    refine reports_some ((Callable.reports_call depth hf hvs).mapError Fault.ofCall fun e => ?_)
    cases e <;> rfl
  | bind fn target =>
    obtain ⟨hf, ht⟩ := List.forall_mem_append.1 hm
    refine (reports_eval hr fn hf).bind fun v hv => (reports_functionOf hv).bind fun f hf => ?_
    refine (reports_eval hr target ht).bind fun r hr => ?_
    exact (Callable.reports_bind hf hr).bind fun g hg => reports_pure (by simpa using hg)
  | receiver fn =>
    refine (reports_eval hr fn hm).bind fun v hv => (reports_functionOf hv).bind fun f hf => ?_
    refine reports_pure fun r hr => hf.of_mem_parts (List.mem_append_right f.body.captured ?_)
    exact Option.mem_toList.2 hr
  | item list index =>
    refine (reports_eval hr list hm).bind fun v hv => reports_pure fun u hu => ?_
    obtain ⟨items, hi, hu⟩ := Option.bind_eq_some_iff.1 hu
    cases v with
    | list i items' =>
      cases hi
      exact hv.of_mem_parts (List.mem_of_getElem? hu)
    | _ => cases hi
  | own object name =>
    refine (reports_eval hr object hm).bind fun v hv => (reports_membersOf hv).bind fun ms hms => ?_
    exact reports_pure fun u hu => hms u (Entries.mem_values_of_get? hu)
  | entries object =>
    refine (reports_eval hr object hm).bind fun v hv => (reports_membersOf hv).bind fun ms hms => ?_
    exact reports_some (Value.reports_newEntries hms)
  | keys record =>
    exact (reports_eval hr record hm).bind fun v _ => reports_newListOf v.failsOnly_recordKeys?
  | values record =>
    exact (reports_eval hr record hm).bind fun v hv =>
      reports_newListOf (Value.failsOnly_recordValues? hv)
  | wrap w times e =>
    exact (reports_eval hr e hm).bind fun v hv => reports_some (reports_wrap w times hv)
  | host h =>
    refine (reports_host h).bind fun k _ => reports_pure ?_
    simpa using failsOnly_host k
  | copy object =>
    refine (reports_eval hr object hm).bind fun v hv => ?_
    cases v with
    | object i members => exact reports_some (Value.reports_newObject fun _ => hv.of_mem_parts)
    | _ => exact reports_throw (by simp [Fails.lookup?])

/-! ### Commands that observe -/

namespace Answer

/-- The key of the failed lookup that the answer tells of. -/
def lookup? : Answer → Option MemberKey
  | fault f => Fails.lookup? f
  | _ => none

/-- The answer tells of none. -/
def IsPlain (a : Answer) : Prop := a.lookup? = none

end Answer

lemma reports_shapeOf (v : Value) : (shapeOf v : Act ε Shape).Reports K Any :=
  reports_registry.bind fun _ _ => reports_pure trivial

lemma reports_shapesOf (vs : List Value) : (shapesOf vs : Act ε (List Shape)).Reports K Any :=
  reports_registry.bind fun _ _ => reports_pure trivial

lemma reports_recordAnswer (ks vs : List Value) :
    (do return .record (← shapesOf ks) (← shapesOf vs) : Act ε Answer).Reports K
      Answer.IsPlain :=
  (reports_shapesOf ks).bind fun _ _ => (reports_shapesOf vs).bind fun _ _ =>
    reports_pure rfl

lemma reports_internKey (key : MapKey String) :
    (internKey key : Act ε (MapKey Keyword)).Reports K Any := by
  cases key with
  | keyword name => exact (reports_intern name).bind fun _ _ => reports_pure trivial
  | _ => exact reports_pure trivial

lemma reports_read (source : Source) : source.read.Reports K Any := by
  unfold Source.read
  split
  · split
    · exact reports_pure trivial
    · exact reports_throw (by simp [Fails.lookup?])
  · exact reports_pure trivial

lemma reports_observe (hr : regs.FailsOnly K) (o : Observe) (ho : ∀ source, o ≠ .start source)
    (hf : ∀ key ∈ o.failures, key ∈ K) : (o.run regs).Reports K Answer.IsPlain := by
  cases o with
  | equal a b | equalItems a b =>
    obtain ⟨ha, hb⟩ := List.forall_mem_append.1 hf
    exact (reports_eval hr a ha).bind fun _ _ => (reports_eval hr b hb).bind fun _ _ =>
      reports_pure rfl
  | display e | debug e | pretty e =>
    exact (reports_eval hr e hf).bind fun v _ => (reports_shapeOf v).bind fun _ _ =>
      reports_pure rfl
  | inspect e =>
    exact (reports_eval hr e hf).bind fun _ _ => reports_registry.bind fun _ _ =>
      reports_pure rfl
  | object e keys =>
    exact (reports_eval hr e hf).bind fun _ hv => (reports_membersOf hv).bind fun _ _ =>
      reports_pure rfl
  | iterate e steps =>
    refine (reports_eval hr e hf).bind fun _ hv => (reports_membersOf hv).bind fun _ _ => ?_
    exact reports_registry.bind fun _ _ => reports_pure rfl
  | record e =>
    refine (reports_eval hr e hf).bind fun v _ => ?_
    split
    · exact reports_recordAnswer _ _
    · exact reports_recordAnswer _ _
    · exact reports_throw (by simp [Fails.lookup?])
  | hostMap pairs => exact reports_recordAnswer _ _
  | mapKey e =>
    refine (reports_eval hr e hf).bind fun v _ => ?_
    split
    · exact reports_pure rfl
    · exact reports_registry.bind fun _ _ => (reports_shapeOf _).bind fun _ _ =>
        reports_pure rfl
  | hostKey host other =>
    refine (reports_internKey host).bind fun k _ => (reports_eval hr other hf).bind fun v _ => ?_
    exact reports_registry.bind fun _ _ => (reports_shapeOf _).bind fun _ _ =>
      reports_pure rfl
  | key k => exact (reports_key k).bind fun _ _ => reports_pure rfl
  | equalKeys a b =>
    exact (reports_key a).bind fun _ _ => (reports_key b).bind fun _ _ => reports_pure rfl
  | countKeys keys => exact (reports_keys keys).bind fun _ _ => reports_pure rfl
  | keyword name other =>
    refine (reports_intern name).bind fun _ _ => reports_registry.bind fun _ _ => ?_
    refine (reports_intern _).bind fun _ _ => (reports_intern other).bind fun _ _ => ?_
    exact reports_pure rfl
  | settings source =>
    refine (reports_read source).bind fun s _ => ?_
    split
    · exact reports_pure rfl
    · exact reports_throw (by simp [Fails.lookup?])
  | findKeyword name => exact reports_registry.bind fun _ _ => reports_pure rfl
  | register name =>
    exact (reports_intern name).bind fun _ _ => reports_registry.bind fun _ _ =>
      reports_pure rfl
  | start source => exact absurd rfl (ho source)
  | _ => exact reports_pure rfl

/-! ### Starts -/

/-- The settings of the source with the level that they write, if there are both. -/
def Source.levelled : Source → Except SettingsError (Settings × Level)
  | document text => (Settings.ofToml text).bind fun s => s.level.map (s, ·)
  | settings s => s.level.map (s, ·)

/-- The settings and the level of a command that starts the process; a start that fails has none. -/
def Command.starting? : Command → Option (Settings × Level)
  | observe (.start source) => source.levelled.toOption
  | _ => none

/-- What a command answers and how it leaves the process. -/
inductive Command.Reported (K : Set MemberKey) (c : Command) (p : Process) :
    Answer → Process → Prop where
  /-- Whatever failed lookup it answers with was not refused by nil. -/
  | quiet {names : List String} {a : Answer} {q : Process} (hc : c.starting? = none)
      (h : Notes names p q) (ha : ∀ key ∈ a.lookup?, key ∈ K) : Reported K c p a q
  | refused {names : List String} {key : MemberKey} {a : Answer} {q : Process}
      (hc : c.starting? = none) (h : Notes names p q) (ha : a.lookup? = some key)
      (hk : key ≠ .capability .typeTag) : Reported K c p a (q.emit (.nilLookup key))
  | started {s : Settings} {level : Level} {ks : List Keyword} {q : Process}
      (hc : c.starting? = some (s, level)) (h : s.Started level p ks q) :
      Reported K c p (.started s.preloadKeywords) q

/-! ### Sessions -/

variable {s : Session} {c : Command} {cs : List Command} {p q : Process} {a : Answer}

lemma Registers.FailsOnly.keep (hr : regs.FailsOnly K) (into : Option String) {v : Value}
    (hv : v.FailsOnly K) : ((⟨p, regs⟩ : Session).keep into v).registers.FailsOnly K := by
  cases into with
  | none => exact hr
  | some name =>
    intro u hu
    obtain rfl | hu := Entries.mem_values_insert hu
    · exact hv
    · exact hr u hu

lemma Source.read_apply (source : Source) (p : Process) :
    (∃ st, source.read p = .ok st p ∧ source.levelled = st.level.map (st, ·)) ∨
    ∃ e, source.read p = .error (.settings e) p ∧ source.levelled = .error e := by
  cases source with
  | settings st => exact .inl ⟨st, rfl, rfl⟩
  | document text =>
    unfold read levelled
    simp only
    cases Settings.ofToml text with
    | error e => exact .inr ⟨e, rfl, rfl⟩
    | ok st => exact .inl ⟨st, rfl, rfl⟩

namespace Command

variable {source : Source} {st : Settings} {level : Level} {e : SettingsError}

/-- A start that cannot be read or has no level changes nothing. -/
lemma run_start_error (h : source.levelled = .error e) (depth : Nat) (s : Session) :
    (observe (.start source)).run depth s = (.fault (.settings e), s) := by
  simp only [run, Observe.run, bind_apply, mapError_apply]
  obtain ⟨st, hr, hl⟩ | ⟨e', hr, hl⟩ := source.read_apply s.process
  · rw [h] at hl
    cases hs : st.level with
    | ok level => rw [hs] at hl; cases hl
    | error e' =>
      rw [hs] at hl
      cases hl
      simp only [hr, Settings.start_of_error hs]
  · cases h.symm.trans hl
    simp only [hr]

lemma run_start_ok (h : source.levelled = .ok (st, level)) (depth : Nat) (s : Session) :
    ∃ ks q, st.Started level s.process ks q ∧
      (observe (.start source)).run depth s =
        (.started st.preloadKeywords, { s with process := q }) := by
  simp only [run, Observe.run, bind_apply, mapError_apply]
  obtain ⟨st', hr, hl⟩ | ⟨e', hr, hl⟩ := source.read_apply s.process
  · rw [h] at hl
    cases hs : st'.level with
    | error e => rw [hs] at hl; cases hl
    | ok level' =>
      rw [hs] at hl
      cases hl
      obtain ⟨ks, q, hst, hq, -⟩ := Settings.started_of_level hs s.process
      refine ⟨ks, q, hq, ?_⟩
      simp only [hr, hst, registry_apply, pure_apply, hq.nameOf_eq]
  · cases h.symm.trans hl

lemma start_reported (source : Source) (s : Session) (depth : Nat) :
    (observe (.start source)).Reported K s.process ((observe (.start source)).run depth s).1
      ((observe (.start source)).run depth s).2.process := by
  cases h : source.levelled with
  | error e =>
    rw [run_start_error h]
    exact .quiet (by simp [starting?, h, Except.toOption]) (.refl _)
      (by simp [Answer.lookup?, Fails.lookup?])
  | ok x =>
    obtain ⟨ks, q, hq, hr⟩ := run_start_ok h depth s
    rw [hr]
    exact .started (by simp [starting?, h, Except.toOption]) hq

end Command

lemma Command.starting?_eq_none {o : Observe} (ho : ∀ source, o ≠ .start source) :
    (observe o).starting? = none := by
  unfold starting?
  split
  · next source heq => exact absurd (observe.inj heq) (ho source)
  · rfl

theorem Command.run_reported (depth : Nat) (hr : s.registers.FailsOnly K) (c : Command)
    (hc : ∀ key ∈ c.failures, key ∈ K) :
    c.Reported K s.process (c.run depth s).1 (c.run depth s).2.process ∧
      (c.run depth s).2.registers.FailsOnly K := by
  cases c with
  | make m into quiet =>
    have he := reports_make depth hr m hc s.process
    simp only [Command.run]
    generalize m.run depth s.registers s.process = x at he ⊢
    cases he with
    | silent h he => exact ⟨.quiet rfl h he, hr⟩
    | refused h he hk => exact ⟨.refused rfl h he hk, hr⟩
    | @ok _ o q h hv =>
      cases o with
      | none => exact ⟨.quiet rfl h (by simp [Answer.lookup?]), hr⟩
      | some v =>
        have hl : (Answer.ofValue q.registry quiet v).lookup? = none := by cases quiet <;> rfl
        refine ⟨?_, hr.keep into (hv v rfl)⟩
        simp only [Session.process_keep]
        exact .quiet rfl h (by simp [hl])
  | observe o =>
    by_cases ho : ∃ source, o = .start source
    · obtain ⟨source, rfl⟩ := ho
      refine ⟨Command.start_reported source s depth, ?_⟩
      simp only [Command.run]
      split <;> exact hr
    · have ho : ∀ source, o ≠ .start source := fun source h => ho ⟨source, h⟩
      have he := reports_observe hr o ho hc s.process
      have hn := starting?_eq_none ho
      simp only [Command.run]
      generalize o.run s.registers s.process = x at he ⊢
      cases he with
      | @ok _ a _ h ha =>
        have ha : a.lookup? = none := ha
        exact ⟨.quiet hn h (by simp [ha]), hr⟩
      | silent h he => exact ⟨.quiet hn h he, hr⟩
      | refused h he hk => exact ⟨.refused hn h he hk, hr⟩

end ObjectModel.Script
