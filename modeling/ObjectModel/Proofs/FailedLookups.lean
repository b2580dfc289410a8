import Mathlib
import ObjectModel.Proofs.Asking.Act
import ObjectModel.Proofs.Builtins
import ObjectModel.Proofs.Identity
import ObjectModel.Proofs.Registration
import ObjectModel.Proofs.Reporting.Written

/-!
Failed lookups and the log. Where no function fails by itself, a lookup error always comes from nil,
which has reported it by then; so the log has one event for each operation that ends with such an
error, whatever calls it went through, and no other events of the kind. Main statement:
`Script.Session.failed_lookups_logged`.
-/

namespace ObjectModel

open Process (Notes)
open Script (Session Command Answer)

/-- The key of the failed lookup that the event reports. -/
def Event.lookup? : Event → Option MemberKey
  | nilLookup key => some key
  | _ => none

/-- The failed lookups in the log, first the oldest. -/
def Process.lookups (p : Process) : List MemberKey := p.written.filterMap Event.lookup?

/-- What is reported at this level is written. -/
def Process.Logs (l : Level) (p : Process) : Prop := ∃ b, p.Subscribed b ∧ b.level.within l

/-- Where failed lookups are written, it writes the one that it ends with, if it ends with one, and
nothing else. -/
def Act.WritesFailure {ε α : Type} [Fails ε] (act : Act ε α) : Prop :=
  ∀ p, p.Logs .debug →
    match act p with
    | .ok _ q => q.written = p.written
    | .error e q => q.written = p.written ++ (Fails.lookup? e).toList.map .nilLookup

variable {ε α : Type} [Fails ε] {K : Set MemberKey} {A : α → Prop} {b : Subscriber}
  {p q : Process} {key : MemberKey} {es : List Event}

/-! ### Events of the log -/

namespace Event

/-- None of them is lost at a level that writes them. -/
lemma lookups_filter {l : Level} (hl : l.within .debug) (es : List Event) :
    (es.filter fun e => l.within e.level).filterMap lookup? = es.filterMap lookup? := by
  rw [List.filterMap_filter]
  refine List.filterMap_congr fun e _ => ?_
  cases e with
  | nilLookup key => exact if_pos hl
  | _ => exact ite_self none

lemma lookups_interned (names : List String) :
    (names.map interned).filterMap lookup? = [] := by
  rw [List.filterMap_map]
  exact List.filterMap_eq_nil_iff.2 fun _ _ => rfl

end Event

lemma Settings.lookups_reports (s : Settings) (p : Process) :
    (s.reports p).filterMap Event.lookup? = [] := by
  rw [reports, List.filterMap_append, Event.lookups_interned]
  rfl

namespace Process

lemma Subscribed.lookups_append (h : p.Subscribed b) (hl : b.level.within .debug)
    (hs : q.subscriber = p.subscriber) (he : q.events = p.events ++ es) :
    q.lookups = p.lookups ++ es.filterMap Event.lookup? := by
  rw [lookups, h.written_append hs he, List.filterMap_append, Event.lookups_filter hl]
  rfl

lemma Notes.subscribed {names : List String} (h : Notes names p q) (hp : p.Subscribed b) :
    q.Subscribed b :=
  hp.of_append h.subscriber_eq h.events_eq

lemma Notes.lookups_eq {names : List String} (h : Notes names p q) (hp : p.Subscribed b)
    (hl : b.level.within .debug) : q.lookups = p.lookups := by
  rw [hp.lookups_append hl h.subscriber_eq h.events_eq, Event.lookups_interned, List.append_nil]

/-- Where no name is registered there is nothing to write. -/
lemma Notes.written_eq {names : List String} (h : Notes names p q) (hp : p.Subscribed b)
    (hr : q.registry = p.registry) : q.written = p.written := by
  have hn := h.names_eq
  rw [hr, List.self_eq_append_right] at hn
  rw [hp.written_append h.subscriber_eq h.events_eq, hn]
  exact List.append_nil _

lemma written_nilLookup (hp : p.Subscribed b) (hl : b.level.within .debug) (key : MemberKey) :
    (p.emit (.nilLookup key)).written = p.written ++ [.nilLookup key] := by
  have hf : [Event.nilLookup key].filter (fun e => b.level.within e.level) = [.nilLookup key] :=
    List.filter_cons_of_pos hl
  have hw := hp.written_append (show (p.emit (.nilLookup key)).subscriber = _ from rfl) rfl
  rw [hw, hf]

end Process

/-! ### One operation -/

lemma Act.Reports.writesFailure {act : Act ε α} (h : act.Reports ∅ A) (ha : act.Asks []) :
    act.WritesFailure := by
  rintro p ⟨b, hp, hl⟩
  -- it registers nothing, so its events are those of failed lookups
  have hr := ha.keepsRegistry p
  have he := h p
  generalize act p = x at hr he ⊢
  cases he with
  | ok h => exact h.written_eq hp (hr _ (.inl ⟨_, rfl⟩))
  | silent h he =>
    have hn : Fails.lookup? _ = none := Option.eq_none_iff_forall_not_mem.2 he
    simp only [hn, h.written_eq hp (hr _ (.inr ⟨_, rfl⟩))]
    exact (List.append_nil _).symm
  | @refused _ e q key h he =>
    have hr : q.registry = p.registry := hr (q.emit (.nilLookup key)) (.inr ⟨e, rfl⟩)
    simp only [he, Process.written_nilLookup (h.subscribed hp) hl, h.written_eq hp hr]
    rfl

/-- Reading from a value does not depend on what the functions in it fail with. -/
lemma Value.member_writesFailure (v : Value) (key : MemberKey) :
    (v.member key).WritesFailure := by
  rintro p ⟨b, hp, hl⟩
  cases hm : v.member key p with
  | ok u q =>
    have hr := (v.asks_member key).keepsRegistry p q (.inl ⟨u, hm⟩)
    have he := reports_member v.failsOnly_univ key p
    rw [hm] at he
    cases he with
    | ok h => exact h.written_eq hp hr
  | error e q =>
    obtain ⟨-, rfl, rfl⟩ := member_eq_error_iff.1 hm
    exact Process.written_nilLookup hp hl key

/-! ### Calls inside calls -/

/-- A function that is called from within a call fails with no other keys than that one, and
whatever was reported by then, the subscriber is still there. -/
lemma Callable.Calls.failsOnly {f g : Function} {args as : List Value} (h : f.Calls args p g as q)
    (hf : (Value.function f).FailsOnly K) (ha : ∀ v ∈ args, v.FailsOnly K) (hp : p.Subscribed b) :
    (Value.function g).FailsOnly K ∧ (∀ v ∈ as, v.FailsOnly K) ∧ q.Subscribed b := by
  induction h with
  | here f args p => exact ⟨hf, ha, hp⟩
  | @send f g h i key args as p p' q _ hm _ ih =>
    have he := Value.reports_member hf.this key p
    rw [hm] at he
    cases he with
    | ok h hg => exact ih hg ha (h.subscribed hp)
  | apply _ _ ih =>
    obtain ⟨hg, ha⟩ := List.forall_mem_cons.1 ha
    exact ih hg ha hp

namespace Script

variable {depth : Nat} {s : Session} {c : Command} {a : Answer}

lemma Command.Calls.failsOnly {g : Function} {as : List Value} (h : c.Calls s g as q)
    (hc : ∀ key ∈ c.failures, key ∈ K) (hr : s.registers.FailsOnly K)
    (hs : s.process.Subscribed b) :
    (Value.function g).FailsOnly K ∧ (∀ v ∈ as, v.FailsOnly K) ∧ q.Subscribed b := by
  cases h with
  | @call fn args _ _ _ _ _ _ p' _ _ hf hv hg =>
    obtain ⟨hfn, hargs⟩ := List.forall_mem_append.1 hc
    have he := reports_eval hr fn hfn s.process
    rw [hf] at he
    cases he with
    | ok h hf =>
      have he := reports_items hr args hargs p'
      rw [hv] at he
      cases he with
      | ok h' hv => exact hg.failsOnly hf hv (h'.subscribed (h.subscribed hs))

/-! ### Runs -/

/-- A command writes the failed lookup that it answers with, and no other. -/
lemma Command.Reported.lookups_eq (h : c.Reported ∅ p a q) (hp : p.Subscribed b)
    (hl : b.level.within .debug) :
    q.lookups = p.lookups ++ a.lookup?.toList ∧ a.lookup? ≠ some (.capability .typeTag) := by
  cases h with
  | quiet _ h ha =>
    have hn : a.lookup? = none := Option.eq_none_iff_forall_not_mem.2 ha
    rw [h.lookups_eq hp hl, hn]
    exact ⟨(List.append_nil _).symm, nofun⟩
  | refused _ h ha hk =>
    rw [ha]
    refine ⟨?_, fun he => hk (Option.some_inj.1 he)⟩
    rw [Process.lookups, Process.written_nilLookup (h.subscribed hp) hl, List.filterMap_append]
    exact congrArg (· ++ _) (h.lookups_eq hp hl)
  | @started st _ _ _ _ h =>
    obtain ⟨hs, he⟩ := h.of_subscribed hp
    refine ⟨?_, nofun⟩
    rw [hp.lookups_append hl hs he, List.filterMap_cons_none rfl, st.lookups_reports]
    rfl

namespace Session

/-- From a process that writes failed lookups on, they are those of the answers. -/
lemma lookups_run (depth : Nat) (hr : s.registers.FailsOnly ∅) (hp : s.process.Subscribed b)
    (hl : b.level.within .debug) {ds : List Command} (hf : ∀ d ∈ ds, d.failures = []) :
    (s.run depth ds).2.process.lookups =
        s.process.lookups ++ (s.run depth ds).1.filterMap (·.answer.lookup?) ∧
      .capability .typeTag ∉ (s.run depth ds).1.filterMap (·.answer.lookup?) := by
  induction ds generalizing s with
  | nil => exact ⟨(List.append_nil _).symm, List.not_mem_nil⟩
  | cons d ds ih =>
    obtain ⟨hd, hds⟩ := List.forall_mem_cons.1 hf
    obtain ⟨h, hr'⟩ := d.run_reported depth hr (by simp [hd])
    obtain ⟨hq, ht⟩ := h.lookups_eq hp hl
    obtain ⟨hqs, hts⟩ := ih hr' (h.subscribed hp) hds
    have he : (s.run depth (d :: ds)).1.filterMap (·.answer.lookup?) =
        (d.run depth s).1.lookup?.toList ++
          ((d.run depth s).2.run depth ds).1.filterMap (·.answer.lookup?) := by
      rw [run_cons, List.filterMap_cons]
      cases (d.run depth s).1.lookup? <;> rfl
    rw [he]
    refine ⟨?_, ?_⟩
    · rw [run_cons, hqs, hq, List.append_assoc]
    · rw [List.mem_append, not_or]
      exact ⟨fun h => ht (Option.mem_toList.1 h), hts⟩

/-- What a run holds fails only with keys that its commands write down. -/
lemma failsOnly_run (hr : s.registers.FailsOnly K) {cs : List Command}
    (hf : ∀ c ∈ cs, ∀ key ∈ c.failures, key ∈ K) : (s.run depth cs).2.registers.FailsOnly K := by
  induction cs generalizing s with
  | nil => exact hr
  | cons c cs ih =>
    obtain ⟨hc, hcs⟩ := List.forall_mem_cons.1 hf
    exact ih (c.run_reported depth hr hc).2 hcs

lemma Holds.failsOnly {v : Value} (h : s.Holds v) (hr : s.registers.FailsOnly K) :
    v.FailsOnly K := by
  obtain ⟨r, hm, hv⟩ := h
  intro u hu
  exact hr r.2 (List.mem_map_of_mem hm) u (hu.trans hv)

/-- What the log tells of failed lookups from a session on in which no function fails by itself. -/
structure LogsLookups (depth : Nat) (s : Session) : Prop where
  logs : s.process.Logs .debug
  /-- No function that is held fails by itself. -/
  holds {v : Value} : s.Holds v → v.FailsOnly ∅
  /-- Reading a member writes the lookup that failed, and so do nil itself and a call. -/
  member (v : Value) (key : MemberKey) : (v.member key).WritesFailure
  nilMember (key : MemberKey) : (nilMember key).WritesFailure
  call (n : Nat) {f : Function} {args : List Value} : (Value.function f).FailsOnly ∅ →
    (∀ v ∈ args, v.FailsOnly ∅) → (f.call n args).WritesFailure
  /-- So does every call that a command comes to, however deep inside other calls. -/
  calls {c : Command} {g : Function} {as : List Value} {q : Process} : c.failures = [] →
    c.Calls s g as q → q.Logs .debug ∧ ∀ n, (g.call n as).WritesFailure
  /-- Errors that are only made, shown and compared are not written. -/
  key (k : KeyExpr) :
    ((Command.observe (.key k)).run depth s).2.process.lookups = s.process.lookups
  equalKeys (j k : KeyExpr) :
    ((Command.observe (.equalKeys j k)).run depth s).2.process.lookups = s.process.lookups

lemma logsLookups (depth : Nat) (hp : s.process.Logs .debug) (hr : s.registers.FailsOnly ∅) :
    s.LogsLookups depth := by
  obtain ⟨b, hb, hl⟩ := hp
  have hcall (n : Nat) {f : Function} {args : List Value} (hf : (Value.function f).FailsOnly ∅)
      (ha : ∀ v ∈ args, v.FailsOnly ∅) : (f.call n args).WritesFailure :=
    (Callable.reports_call n hf ha).writesFailure (f.asks_call n args)
  have hquiet (o : Observe) (hf : o.failures = [])
      (ha : ((Command.observe o).run depth s).1.lookup? = none) :
      ((Command.observe o).run depth s).2.process.lookups = s.process.lookups := by
    have h := ((Command.observe o).run_reported depth hr (by simp [Command.failures, hf])).1
    rw [(h.lookups_eq hb hl).1, ha]
    exact List.append_nil _
  refine ⟨⟨b, hb, hl⟩, fun h => h.failsOnly hr, Value.member_writesFailure, fun key => ?_, hcall,
    fun hc h => ?_, fun k => hquiet _ rfl ?_, fun j k => hquiet _ rfl ?_⟩
  · exact (reports_nilMember key).writesFailure (asks_nilMember key)
  · obtain ⟨hg, ha, hq⟩ := h.failsOnly (by simp [hc]) hr hb
    exact ⟨⟨b, hq, hl⟩, fun n => hcall n hg ha⟩
  · cases k <;> rfl
  · cases j <;> cases k <;> rfl

/-- **Failed lookups and their events** are one to one from the first start on, if it has a log that
they are written to and no command writes down a function that fails by itself: the log has the
failed lookups that the answers tell of, in their order, and no others. -/
theorem failed_lookups_logged (depth : Nat) {cs ds : List Command} {c : Command} {st : Settings}
    {level : Level} (hf : ∀ d ∈ cs ++ c :: ds, d.failures = [])
    (hcs : ∀ d ∈ cs, d.starting? = none) (hc : c.starting? = some (st, level))
    (hl : level.within .debug) :
    let run := (initial.run depth (cs ++ [c])).2.run depth ds
    run.2.process.lookups = run.1.filterMap (·.answer.lookup?) ∧
    .capability .typeTag ∉ run.2.process.lookups ∧
    run.2.LogsLookups depth ∧
    ∀ e : LookupError, (Event.nilLookup e.member).message = "member lookup on nil" ∧
      (Event.nilLookup e.member).fields = [("member", e.member.text)] := by
  intro run
  obtain ⟨hn, ks, hst⟩ := exists_started depth hcs hc
  obtain ⟨hb, hw⟩ := hst.subscribed hn
  have hr : (initial.run depth (cs ++ [c])).2.registers.FailsOnly ∅ := by
    refine failsOnly_run (by simp [initial, Registers.FailsOnly, Entries.values]) fun d hd => ?_
    rw [hf d (by simp at hd ⊢; tauto)]
    simp
  have hds : ∀ d ∈ ds, d.failures = [] := fun d hd => hf d (by simp [hd])
  obtain ⟨hq, ht⟩ := lookups_run depth hr hb hl hds
  have h0 : (initial.run depth (cs ++ [c])).2.process.lookups = [] := by
    rw [Process.lookups, hw, Event.lookups_filter hl, st.lookups_reports]
  rw [h0, List.nil_append] at hq
  refine ⟨hq, hq ▸ ht, ?_, fun e => ⟨rfl, rfl⟩⟩
  refine logsLookups depth ⟨_, subscribed_run depth hb ds, hl⟩ (failsOnly_run hr fun d hd => ?_)
  rw [hds d hd]
  simp

/-- A member of nil, and a path that a call starts from nil. -/
theorem failed_lookups_logged_twice :
    let start := Command.observe (.start (.settings ⟨"debug", true, ["a", "a"]⟩))
    let read := Command.make (.nilMember (.name "x")) none false
    let call := Command.make (.call (.function "f" (.path [.keyword "m", .name "n"])) []) none true
    let tag := Command.make (.nilMember (.capability .typeTag)) none false
    ((initial.run 3 [start]).2.run 3 [read, tag, call]).2.process.lookups =
      [.name "x", .name "m"] := by
  intro start read call tag
  have hf : ∀ d ∈ [] ++ start :: [read, tag, call], d.failures = [] := by
    simp [start, read, call, tag, Command.failures, Observe.failures, Make.failures,
      Expr.failures, Expr.codeFailures, Expr.itemFailures]
  have h := failed_lookups_logged 3 hf (List.forall_mem_nil _)
    (show start.starting? = some (⟨"debug", true, ["a", "a"]⟩, .debug) by decide) (by decide)
  exact h.1.trans rfl

end Session

end Script

end ObjectModel
