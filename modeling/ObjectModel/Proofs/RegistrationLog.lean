import Mathlib
import ObjectModel.Proofs.Reporting.Written

/-!
The log as a ledger of registrations. Where the first subscriber writes everything, the log has the
names that were registered since, each once and in order, and each start accounts for those before
it. Main statement: `Script.Session.registrations_logged`.
-/

namespace ObjectModel

open Script (Session Command Answer)

/-- The name that the event reports as new. -/
def Event.name? : Event → Option String
  | interned name => some name
  | _ => none

/-- The names that the log reports as new, first the oldest. -/
def Process.loggedNames (p : Process) : List String := p.written.filterMap Event.name?

variable {p q : Process} {es pre post : List Event} {e : Event} {n m : Nat}

lemma Level.within_trace (l : Level) : Level.trace.within l := by cases l <;> rfl

/-- A log at the most verbose level leaves nothing out. -/
lemma filter_trace (es : List Event) : (es.filter fun e => Level.trace.within e.level) = es :=
  List.filter_eq_self.2 fun e _ => e.level.within_trace

namespace Event

lemma names_interned (names : List String) : (names.map interned).filterMap name? = names := by
  rw [List.filterMap_map]
  exact List.filterMap_some

lemma initialized_not_mem (names : List String) : initialized n m ∉ names.map interned := by
  intro h
  obtain ⟨name, -, h⟩ := List.mem_map.1 h
  cases h

/-- An event in two pieces of a log is in the first or in the second. -/
lemma split_append {xs ys : List Event} (h : xs ++ ys = pre ++ e :: post) :
    (∃ rest, xs = pre ++ e :: rest) ∨ ∃ rest, pre = xs ++ rest ∧ ys = rest ++ e :: post := by
  obtain ⟨rest, hp, hy⟩ | ⟨rest, hx, hp⟩ := List.append_eq_append_iff.1 h
  · exact .inr ⟨rest, hp, hy⟩
  · cases rest with
    | nil => exact .inr ⟨[], by rw [hx, List.append_nil, List.append_nil], hp.symm⟩
    | cons d rest =>
      obtain ⟨rfl, -⟩ := List.cons.inj hp
      exact .inl ⟨rest, hx⟩

/-- A report that stands only at the end of some events can only be met there. -/
lemma eq_of_append_initialized (h : es ++ [e] = pre ++ initialized n m :: post)
    (hi : initialized n m ∉ es) : pre = es ∧ initialized n m = e ∧ post = [] := by
  rcases List.eq_nil_or_concat post with rfl | ⟨post, d, rfl⟩
  · obtain ⟨rfl, he⟩ := List.append_inj' h rfl
    cases he
    exact ⟨rfl, rfl, rfl⟩
  · rw [List.concat_eq_append, ← List.cons_append, ← List.append_assoc] at h
    obtain ⟨rfl, -⟩ := List.append_inj' h rfl
    exact absurd (List.mem_append_right pre List.mem_cons_self) hi

end Event

namespace Script

variable {K : Set MemberKey} {depth : Nat} {s : Session} {c d : Command} {cs ds : List Command}
  {a : Answer} {b : Subscriber} {st : Settings} {level : Level}

/-- What a command has written is the names that it registers, other events besides, and at the end
of a start how many were asked for and how many there are. -/
inductive Command.LogsNames (c : Command) (p q : Process) : Prop where
  | names {es : List Event} (hw : q.written = p.written ++ es)
      (hn : q.registry.names = p.registry.names ++ es.filterMap Event.name?)
      (hi : ∀ n m, .initialized n m ∉ es) : LogsNames c p q
  | start {es : List Event} {st : Settings} {level : Level} (hc : c.starting? = some (st, level))
      (hw : q.written =
        p.written ++ (es ++ [.initialized st.preloadKeywords.length q.registry.size]))
      (hn : q.registry.names = p.registry.names ++ es.filterMap Event.name?)
      (hi : ∀ n m, .initialized n m ∉ es) : LogsNames c p q

/-! ### One command -/

lemma Command.Reported.logsNames (h : c.Reported K p a q) (hp : p.Subscribed b)
    (hl : b.level = .trace) : c.LogsNames p q := by
  cases h with
  | @quiet names _ _ _ h =>
    have hw := hp.written_append h.subscriber_eq h.events_eq
    rw [hl, filter_trace] at hw
    exact .names hw (by rw [h.names_eq, Event.names_interned]) fun n m =>
      Event.initialized_not_mem names
  | @refused names key _ q _ h =>
    have hs : (q.emit (.nilLookup key)).subscriber = p.subscriber := h.subscriber_eq
    have he : (q.emit (.nilLookup key)).events =
        p.events ++ (names.map .interned ++ [.nilLookup key]) := by
      rw [← List.append_assoc, ← h.events_eq]
      rfl
    have hw := hp.written_append hs he
    rw [hl, filter_trace] at hw
    refine .names hw ?_ fun n m hm => ?_
    · rw [List.filterMap_append, Event.names_interned]
      exact h.names_eq.trans (congrArg _ (List.append_nil _).symm)
    · obtain hm | hm := List.mem_append.1 hm
      · exact Event.initialized_not_mem names hm
      · cases List.mem_singleton.1 hm
  | @started st _ _ _ hc h =>
    obtain ⟨hs, he⟩ := h.of_subscribed hp
    have hw := hp.written_append hs he
    rw [hl, filter_trace, Settings.reports, ← List.cons_append, ← h.size_eq] at hw
    refine .start hc hw ?_ fun n m hm => ?_
    · rw [h.names_eq, List.filterMap_cons_none rfl, Event.names_interned]
    · obtain hm | hm := List.mem_cons.1 hm
      · cases hm
      · exact Event.initialized_not_mem _ hm

/-- The first start has written what it registers, though it comes before the subscriber. -/
lemma Command.logsNames_first {ks : List Keyword} (hc : c.starting? = some (st, .trace))
    (h : st.Started .trace p ks q) (hp : p.subscriber = none) : c.LogsNames p q := by
  have hw : q.written = p.written ++ st.reports p := by
    rw [(h.subscribed hp).2, filter_trace, Process.written_of_none hp, List.nil_append]
  rw [Settings.reports, ← h.size_eq] at hw
  refine .start hc hw ?_ fun n m => Event.initialized_not_mem _
  rw [h.names_eq, Event.names_interned]

/-! ### Runs -/

namespace Session

/-- Every command of the run has its names written. -/
def EachLogsNames (depth : Nat) (s : Session) (cs : List Command) : Prop :=
  ∀ (es : List Command) (d : Command) (fs : List Command), cs = es ++ d :: fs →
    d.LogsNames (s.run depth es).2.process (s.run depth (es ++ [d])).2.process

lemma EachLogsNames.of_append (h : s.EachLogsNames depth (cs ++ ds)) :
    s.EachLogsNames depth cs := by
  rintro es d fs rfl
  refine h es d (fs ++ ds) ?_
  rw [List.append_assoc, List.cons_append]

lemma eachLogsNames_run (depth : Nat) (hcs : ∀ d ∈ cs, d.starting? = none)
    (hc : c.starting? = some (st, .trace)) (ds : List Command) :
    (initial.run depth cs).2.EachLogsNames depth (c :: ds) := by
  obtain ⟨hn, ks, hst⟩ := exists_started depth hcs hc
  rw [run_concat] at hst
  intro es d fs he
  rw [run_concat]
  -- the first command comes when there is no subscriber, any later one when there is
  cases es with
  | nil =>
    obtain ⟨rfl, -⟩ := List.cons.inj he
    exact Command.logsNames_first hc hst hn
  | cons c' es =>
    obtain ⟨rfl, -⟩ := List.cons.inj he
    have hb := subscribed_run depth (hst.subscribed hn).1 es
    exact (d.reported depth _).logsNames hb rfl

/-- The ledger has all names that were registered. -/
lemma EachLogsNames.names_eq (h : s.EachLogsNames depth cs) (h0 : s.process.written = []) :
    (s.run depth cs).2.process.registry.names =
      s.process.registry.names ++ (s.run depth cs).2.process.loggedNames := by
  induction cs using List.reverseRecOn with
  | nil =>
    rw [run_nil, Process.loggedNames, h0]
    exact (List.append_nil _).symm
  | append_singleton cs c ih =>
    have hc := h cs c [] rfl
    cases hc with
    | names hw hn =>
      rw [hn, ih h.of_append, Process.loggedNames, Process.loggedNames, hw, List.filterMap_append,
        List.append_assoc]
    | start _ hw hn =>
      rw [hn, ih h.of_append, Process.loggedNames, Process.loggedNames, hw, List.filterMap_append,
        List.filterMap_append, List.append_assoc]
      exact congrArg _ (congrArg _ (List.append_nil _).symm)

/-- One of the commands is a start that asked for so many names, left so many registered and has
reported both numbers right after what was written by then. -/
def Counts (depth : Nat) (s : Session) (cs : List Command) (before : List Event) (n m : Nat) :
    Prop :=
  ∃ (es : List Command) (d : Command) (fs : List Command) (st : Settings) (level : Level),
    cs = es ++ d :: fs ∧ d.starting? = some (st, level) ∧
    n = st.preloadKeywords.length ∧ m = (s.run depth (es ++ [d])).2.process.registry.size ∧
    (s.run depth (es ++ [d])).2.process.written = before ++ [.initialized n m]

lemma Counts.append (h : s.Counts depth cs pre n m) (ds : List Command) :
    s.Counts depth (cs ++ ds) pre n m := by
  obtain ⟨es, d, fs, st, level, rfl, h⟩ := h
  exact ⟨es, d, fs ++ ds, st, level, by rw [List.append_assoc, List.cons_append], h⟩

/-- What a start has entered was true when it did. -/
lemma EachLogsNames.initialized (h : s.EachLogsNames depth cs) (h0 : s.process.written = [])
    (hw : (s.run depth cs).2.process.written = pre ++ .initialized n m :: post) :
    s.Counts depth cs pre n m := by
  induction cs using List.reverseRecOn generalizing post with
  | nil =>
    rw [run_nil, h0] at hw
    cases pre <;> cases hw
  | append_singleton cs c ih =>
    -- it was there before the last command, or that one has entered it
    have hc := h cs c [] rfl
    cases hc with
    | names hw' _ hi =>
      obtain ⟨rest, hr⟩ | ⟨rest, -, rfl⟩ := Event.split_append (hw'.symm.trans hw)
      · exact (ih h.of_append hr).append [c]
      · exact absurd (List.mem_append_right rest List.mem_cons_self) (hi n m)
    | @start es st level hc hw' _ hi =>
      obtain ⟨rest, hr⟩ | ⟨rest, rfl, hr⟩ := Event.split_append (hw'.symm.trans hw)
      · exact (ih h.of_append hr).append [c]
      · obtain ⟨rfl, he, -⟩ := Event.eq_of_append_initialized hr (hi n m)
        obtain ⟨rfl, rfl⟩ := Event.initialized.inj he
        exact ⟨cs, c, [], st, level, rfl, hc, rfl, rfl, by rw [hw', List.append_assoc]⟩

/-- **The log is a ledger of registrations** from the first start on, if that one has everything
written. Its names are those that were registered since, each of them once and in order, whatever
registered them, and nothing else enters one. What a start reports is how many names it asked for
and how many there were at that moment, which are those from before the first start and those
entered so far. -/
theorem registrations_logged (depth : Nat) {cs ds : List Command} {c : Command} {st : Settings}
    (hcs : ∀ d ∈ cs, d.starting? = none) (hc : c.starting? = some (st, .trace)) :
    let s := (initial.run depth cs).2
    let t := (s.run depth (c :: ds)).2
    t.process.loggedNames.Nodup ∧
    t.process.registry.names = s.process.registry.names ++ t.process.loggedNames ∧
    (∀ (d : Command) (names : List String),
      (d.run depth t).2.process.registry.names = t.process.registry.names ++ names →
      (d.run depth t).2.process.loggedNames = t.process.loggedNames ++ names) ∧
    ∀ (pre : List Event) (n m : Nat) (post : List Event),
      t.process.written = pre ++ .initialized n m :: post →
      m = s.process.registry.size + (pre.filterMap Event.name?).length ∧
      s.Counts depth (c :: ds) pre n m := by
  intro s t
  have h0 : s.process.written = [] := Process.written_of_none (exists_started depth hcs hc).1
  have hn (ds : List Command) := (eachLogsNames_run depth hcs hc ds).names_eq h0
  refine ⟨?_, hn ds, fun d names hd => ?_, fun pre n m post hw => ?_⟩
  · have hd := t.process.registry.nodup
    rw [hn ds] at hd
    exact hd.of_append_right
  · have hd' := hn (ds ++ [d])
    rw [← List.cons_append, run_concat] at hd'
    rw [hd, hn ds, List.append_assoc] at hd'
    exact (List.append_cancel_left hd').symm
  · have h := eachLogsNames_run depth hcs hc ds
    have hs := h.initialized h0 hw
    refine ⟨?_, hs⟩
    obtain ⟨es, d, fs, st', level, he, -, -, hm, hw'⟩ := hs
    rw [he, List.append_cons] at h
    have hes := h.of_append.names_eq h0
    rw [Process.loggedNames, hw', List.filterMap_append] at hes
    rw [hm, Registry.size, hes, List.length_append, List.length_append]
    rfl

/-- A name from before the start is not in the log, and a repeated one is there once. -/
theorem registrations_logged_after_one :
    let register := Command.observe (.register "x")
    let start := Command.observe (.start (.settings ⟨"trace", false, ["a", "x", "a"]⟩))
    let again := Command.observe (.start (.settings ⟨"info", false, ["b"]⟩))
    let t := ((initial.run 1 [register]).2.run 1 [start, again]).2
    t.process.loggedNames = ["a", "b"] ∧ t.process.registry.names = ["x", "a", "b"] := by
  intro register start again t
  have hcs : ∀ d ∈ [register], d.starting? = none := by simp [register, Command.starting?]
  have hc : start.starting? = some (⟨"trace", false, ["a", "x", "a"]⟩, .trace) := by decide
  have h := (@registrations_logged 1 [register] [again] start _ hcs hc).2.1
  have hl : t.process.loggedNames = ["a", "b"] := rfl
  have hx : (initial.run 1 [register]).2.process.registry.names = ["x"] := rfl
  refine ⟨hl, ?_⟩
  rw [hx, hl] at h
  exact h

end Session

end Script

end ObjectModel
