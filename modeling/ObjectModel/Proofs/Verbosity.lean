import Mathlib
import ObjectModel.Proofs.Identity
import ObjectModel.Proofs.Reporting.Written

/-!
What the log settings have an influence on: the log, and nothing else. Two runs of a script that
differ in the levels and styles of their starts do the same throughout, report the same, and differ
only in which of it their first start has written, and how. Main statement:
`Script.Session.verbosity_laws`.
-/

namespace ObjectModel

open List (Forall₂)
open Relator
open Script (Session Command Source Observe Answer)

/-- The same process but for the level and the style of its subscriber. -/
structure Process.Like (p q : Process) : Prop where
  next_eq : p.next = q.next
  registry_eq : p.registry = q.registry
  events_eq : p.events = q.events
  since_eq : p.subscriber.map Subscriber.since = q.subscriber.map Subscriber.since

namespace Process

variable {p q : Process}

lemma Like.emit (h : p.Like q) (e : Event) : (p.emit e).Like (q.emit e) where
  next_eq := h.next_eq
  registry_eq := h.registry_eq
  events_eq := congrArg (· ++ [e]) h.events_eq
  since_eq := h.since_eq

lemma Like.fresh (h : p.Like q) : p.fresh.2.Like q.fresh.2 where
  next_eq := congrArg Nat.succ h.next_eq
  registry_eq := h.registry_eq
  events_eq := h.events_eq
  since_eq := h.since_eq

lemma Like.intern (h : p.Like q) (name : String) :
    (p.intern name).2.Like (q.intern name).2 ∧ (p.intern name).1 = (q.intern name).1 := by
  refine ⟨?_, by rw [intern_fst, intern_fst, h.registry_eq]⟩
  rw [intern_snd, intern_snd]
  constructor
  · exact h.next_eq
  · exact congrArg (·.register [name]) h.registry_eq
  · simp only [register, h.events_eq, h.registry_eq]
  · exact h.since_eq

lemma Like.isSome_eq (h : p.Like q) : p.subscriber.isSome = q.subscriber.isSome := by
  have hs := congrArg Option.isSome h.since_eq
  rwa [Option.isSome_map, Option.isSome_map] at hs

/-- Whichever subscriber is there afterwards, it came at the same moment. -/
lemma Like.since_getD (h : p.Like q) {b c : Subscriber} (hbc : b.since = c.since) :
    (p.subscriber.getD b).since = (q.subscriber.getD c).since := by
  have hs := h.since_eq
  cases hp : p.subscriber <;> cases hq : q.subscriber
  all_goals simp_all

lemma Like.subscribe (h : p.Like q) (l l' : Level) (a a' : Bool) :
    (p.subscribe l a).Like (q.subscribe l' a') where
  next_eq := by rw [next_subscribe, next_subscribe, h.next_eq]
  registry_eq := by rw [registry_subscribe, registry_subscribe, h.registry_eq]
  events_eq := by rw [events_subscribe, events_subscribe, h.events_eq, h.isSome_eq]
  since_eq := by
    rw [subscriber_subscribe, subscriber_subscribe]
    exact congrArg some (h.since_getD (by rw [h.events_eq]))

/-- An identity and what was made under it, on both sides. -/
def sameTie : Tie := fun i c j d => i = j ∧ c = d ∧ c.Valid

lemma sameTie_eq (i : Ident) (c : Creation) (j : Ident) (d : Creation) (h : sameTie i c j d) :
    i = j ∧ c = d :=
  ⟨h.1, h.2.1⟩

/-- Two runs that differ in their subscribers only. -/
def likePairing : Pairing Unit where
  Joins _ := Like
  tie _ := sameTie
  keyword _ := Eq
  tie_mono _ _ _ _ _ h := h
  keyword_mono _ _ _ h := h
  tie_valid h := ⟨h.2.2, h.2.1 ▸ h.2.2⟩
  biUnique_tie _ := by
    constructor
    · rintro i j k ⟨c, d, h, -⟩ ⟨c', d', h', -⟩
      exact h.trans h'.symm
    · rintro i j k ⟨c, d, h, -⟩ ⟨c', d', h', -⟩
      exact h.symm.trans h'
  biUnique_keyword _ := biUnique_eq
  nameOf_eq := by
    rintro _ p q j k h rfl
    rw [h.registry_eq]
  fresh := by
    rintro _ p q c d h hc - hcd
    obtain rfl := Creation.Alike.eq sameTie_eq (fun _ _ => id) hcd
    exact ⟨(), le_rfl, h.fresh, h.next_eq, rfl, hc⟩
  intern name h := ⟨(), le_rfl, h.intern name⟩
  nilLookup key h := h.emit _
  subscribe l a h := h.subscribe l l a a
  initialized n h := by
    rw [← h.registry_eq]
    exact h.emit _

end Process

/-- A start leaves processes alike that were so, if it asks for the same names. -/
lemma Settings.Started.like {s s' : Settings} {level level' : Level} {p p' q q' : Process}
    {ks ks' : List Keyword} (h : s.Started level p ks q) (h' : s'.Started level' p' ks' q')
    (hp : p.Like p') (hs : s'.preloadKeywords = s.preloadKeywords) : q.Like q' := by
  have hr : q.registry = q'.registry :=
    Registry.eq_of_names (by rw [h.names_eq, h'.names_eq, hs, hp.registry_eq])
  constructor
  · rw [h.next_eq, h'.next_eq, hp.next_eq]
  · exact hr
  · rw [h.events_eq, h'.events_eq, hp.events_eq, hp.isSome_eq, hs, hp.registry_eq, hr]
  · rw [h.subscriber_eq, h'.subscriber_eq]
    exact congrArg some (hp.since_getD (by rw [hp.events_eq]))

namespace Script

/-- Sources whose settings differ in nothing but the level, if they have one, and the style: either
none can be started from, for the same reason, or both ask for the same names. -/
inductive Source.Relevels (a b : Source) : Prop where
  | error {e : SettingsError} (ha : a.levelled = .error e) (hb : b.levelled = .error e) :
      Relevels a b
  | ok {s t : Settings} {l m : Level} (ha : a.levelled = .ok (s, l)) (hb : b.levelled = .ok (t, m))
      (hn : t.preloadKeywords = s.preloadKeywords) : Relevels a b

/-- The same command, or starts from sources of which one is the other with log settings changed. -/
inductive Command.Relevels : Command → Command → Prop where
  | same (c : Command) : Relevels c c
  | start {a b : Source} (h : a.Relevels b) :
      Relevels (.observe (.start a)) (.observe (.start b))

variable {depth : Nat} {s s' : Session} {c c' : Command} {cs cs' : List Command}

/-! ### Two runs -/

open Process (likePairing)

lemma findKeyword_eq (h : s.process.Like s'.process) (name : String) :
    ((Command.observe (.findKeyword name)).run depth s).1 =
      ((Command.observe (.findKeyword name)).run depth s').1 := by
  simp only [Command.run, Observe.run, Act.bind_apply, Act.registry_apply, h.registry_eq]
  rfl

lemma run_relevels (depth : Nat) (h : likePairing.Together () s s') (hc : c.Relevels c') :
    likePairing.Together () (c.run depth s).2 (c'.run depth s').2 ∧
      (c.run depth s).1 = (c'.run depth s').1 := by
  cases hc with
  | same c =>
    obtain ⟨⟨⟩, -, ht, ha⟩ := Pairing.command_run depth h c
    refine ⟨ht, ?_⟩
    cases c with
    | make m into quiet => exact ha rfl
    | observe o =>
      -- the registry is the same in both, so what is in it may be asked
      cases o with
      | findKeyword name => exact findKeyword_eq h.joins name
      | _ => exact ha rfl
  | start hab =>
    cases hab with
    | error ha hb =>
      rw [Command.run_start_error ha, Command.run_start_error hb]
      exact ⟨h, rfl⟩
    | ok ha hb hn =>
      obtain ⟨ks, q, hq, hr⟩ := Command.run_start_ok ha depth s
      obtain ⟨ks', q', hq', hr'⟩ := Command.run_start_ok hb depth s'
      rw [hr, hr', hn]
      exact ⟨⟨hq.like hq' h.joins hn, h.registers⟩, rfl⟩

namespace Session

lemma run_relevels (depth : Nat) (h : likePairing.Together () s s')
    (hc : Forall₂ Command.Relevels cs cs') :
    likePairing.Together () (s.run depth cs).2 (s'.run depth cs').2 ∧
      (s.run depth cs).1 = (s'.run depth cs').1 := by
  induction hc generalizing s s' with
  | nil => exact ⟨h, rfl⟩
  | cons hc _ ih =>
    obtain ⟨ht, ha⟩ := Script.run_relevels depth h hc
    obtain ⟨hts, has⟩ := ih ht
    rw [run_cons, run_cons]
    exact ⟨hts, by rw [ha, ht.joins.registry_eq, has]⟩

lemma together_initial : likePairing.Together () initial initial :=
  ⟨⟨rfl, rfl, rfl, rfl⟩, .nil⟩

lemma registers_eq (h : likePairing.Together () s s') : s.registers = s'.registers :=
  eq_of_forall₂ (fun _ _ => Pair.Rel.eq (fun _ _ => id) fun _ _ =>
    Alike.eq Process.sameTie_eq fun _ _ => id) h.registers

end Session

/-! ### The first start -/

/-- The settings of the first start that succeeds, with their level. -/
def firstStart? (cs : List Command) : Option (Settings × Level) :=
  cs.findSome? Command.starting?

/-- The commands before it. -/
def beforeStart (cs : List Command) : List Command := cs.takeWhile (·.starting?.isNone)

lemma Command.Relevels.isNone_eq (h : c.Relevels c') :
    c.starting?.isNone = c'.starting?.isNone := by
  cases h with
  | same => rfl
  | start h =>
    cases h with
    | error ha hb => simp [starting?, ha, hb, Except.toOption]
    | ok ha hb => simp [starting?, ha, hb, Except.toOption]

lemma beforeStart_relevels (h : Forall₂ Command.Relevels cs cs') :
    Forall₂ Command.Relevels (beforeStart cs) (beforeStart cs') := by
  induction h with
  | nil => exact .nil
  | @cons c c' cs cs' hc _ ih =>
    have hn := hc.isNone_eq
    unfold beforeStart at ih ⊢
    rw [List.takeWhile_cons, List.takeWhile_cons, hn]
    cases c'.starting?.isNone
    · exact .nil
    · exact .cons hc ih

lemma beforeStart_append {es fs : List Command} (hes : ∀ d ∈ es, d.starting? = none)
    (hc : c.starting?.isSome) : beforeStart (es ++ c :: fs) = es := by
  have hall : ∀ d ∈ es, d.starting?.isNone := fun d hd => by rw [hes d hd]; rfl
  have hneg : ¬ c.starting?.isNone := by
    rw [Option.isNone_iff_eq_none]
    intro h
    rw [h] at hc
    cases hc
  rw [beforeStart, List.takeWhile_append_of_pos hall, List.takeWhile_cons, if_neg hneg,
    List.append_nil]

namespace Session

/-- The subscriber of a run is that of its first start. -/
lemma subscriber_run_initial (depth : Nat) (cs : List Command) :
    (initial.run depth cs).2.process.subscriber = (firstStart? cs).map fun x =>
      ⟨x.2, x.1.logAnsi, (initial.run depth (beforeStart cs)).2.process.events.length⟩ := by
  cases h : firstStart? cs with
  | none =>
    have hcs : ∀ c ∈ cs, c.starting? = none := List.findSome?_eq_none_iff.1 h
    exact subscriber_run depth initial hcs
  | some x =>
    obtain ⟨es, c, fs, rfl, hc, hes⟩ := List.findSome?_eq_some_iff.1 h
    obtain ⟨hn, ks, hst⟩ := exists_started depth hes hc
    have hb := subscribed_run depth (hst.subscribed hn).1 fs
    rw [beforeStart_append hes (by rw [hc]; rfl), List.append_cons, run_append]
    exact hb.subscriber_eq

/-- The log of a run is what was reported from its first start on, at the level of that one. -/
lemma written_run (depth : Nat) (cs : List Command) :
    (initial.run depth cs).2.process.written = match firstStart? cs with
      | none => []
      | some (_, level) => ((initial.run depth cs).2.process.events.drop
          (initial.run depth (beforeStart cs)).2.process.events.length).filter
            fun e => level.within e.level := by
  have hs := subscriber_run_initial depth cs
  cases h : firstStart? cs with
  | none =>
    rw [h] at hs
    exact Process.written_of_none hs
  | some x =>
    rw [h] at hs
    exact Process.written_of_some hs

lemma logText_run {st : Settings} {level : Level} (depth : Nat)
    (h : firstStart? cs = some (st, level)) : (initial.run depth cs).2.process.logText =
      String.join ((initial.run depth cs).2.process.written.map (Event.line st.logAnsi)) := by
  have hs := subscriber_run_initial depth cs
  rw [h] at hs
  unfold Process.logText
  rw [hs]
  rfl

/-- **Log settings have an influence on the log and on nothing else.** Whatever levels and styles
the starts of a script are given, provided that they are given a level if they had one: every
answer is the same and so is the registry after each command, what the registers hold in the end,
and what is reported. The log is that part of it which comes after the first start and is within
its level; so a stricter level leaves some of it out, and of later starts it tells nothing but what
they report. -/
theorem verbosity_laws (depth : Nat) {cs cs' : List Command}
    (h : Forall₂ Command.Relevels cs cs') :
    let run := initial.run depth cs
    let run' := initial.run depth cs'
    run'.1 = run.1 ∧ run'.2.registers = run.2.registers ∧
    run'.2.process.registry = run.2.process.registry ∧
    run'.2.process.events = run.2.process.events ∧
    (run'.2.process.written = match firstStart? cs' with
      | none => []
      | some (_, level) => (run.2.process.events.drop
          (initial.run depth (beforeStart cs)).2.process.events.length).filter
            fun e => level.within e.level) ∧
    ∀ s l s' l', firstStart? cs = some (s, l) → firstStart? cs' = some (s', l') →
      (l'.within l → run.2.process.written.Sublist run'.2.process.written) ∧
      (l' = l → s'.logAnsi = s.logAnsi → run'.2.process.logText = run.2.process.logText) := by
  intro run run'
  obtain ⟨ht, ha⟩ := run_relevels depth together_initial h
  obtain ⟨hb, -⟩ := run_relevels depth together_initial (beforeStart_relevels h)
  have hw := written_run depth cs'
  rw [← ht.joins.events_eq, ← hb.joins.events_eq] at hw
  refine ⟨ha.symm, (registers_eq ht).symm, ht.joins.registry_eq.symm, ht.joins.events_eq.symm, hw,
    fun s l s' l' hs hs' => ?_⟩
  have hr := written_run depth cs
  rw [hs] at hr
  rw [hs'] at hw
  refine ⟨fun hl => ?_, ?_⟩
  · rw [hr, hw]
    refine List.monotone_filter_right _ fun e he => ?_
    simp only [Level.within, decide_eq_true_eq] at hl he ⊢
    exact he.trans hl
  · rintro rfl ha
    rw [logText_run depth hs, logText_run depth hs', hr, hw, ha]

/-- The answers at two levels, and the more verbose log. -/
theorem verbosity_laws_info_trace :
    let script (level : String) (ansi : Bool) : List Command :=
      [.observe (.register "k"), .observe (.start (.settings ⟨level, ansi, ["a"]⟩)),
        .make (.nilMember (.name "x")) none false]
    (initial.run 1 (script "TRACE" true)).1 = (initial.run 1 (script "info" false)).1 ∧
    (initial.run 1 (script "TRACE" true)).2.process.written =
      [.interned "a", .initialized 1 2, .nilLookup (.name "x")] := by
  intro script
  have hs : Source.Relevels (.settings ⟨"info", false, ["a"]⟩) (.settings ⟨"TRACE", true, ["a"]⟩) :=
    .ok (l := .info) (m := .trace) rfl rfl rfl
  have h : Forall₂ Command.Relevels (script "info" false) (script "TRACE" true) :=
    .cons (.same _) (.cons (.start hs) (.cons (.same _) .nil))
  obtain ⟨ha, -, -, -, hw, -⟩ := verbosity_laws 1 h
  exact ⟨ha, hw.trans rfl⟩

end Session

end Script

end ObjectModel
