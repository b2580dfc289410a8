import Mathlib
import ObjectModel.Proofs.Reporting.Script

/-!
Who writes the log of a run. There is no subscriber before the first start; that one installs one,
which writes what is reported from then on at its level, and no later start takes its place.
-/

namespace ObjectModel

open Process (Notes)
open Script (Session Command Answer)

/-- The subscriber is installed, and came after so many events. -/
structure Process.Subscribed (b : Subscriber) (p : Process) : Prop where
  subscriber_eq : p.subscriber = some b
  since_le : b.since ≤ p.events.length

namespace Process

variable {b : Subscriber} {p q : Process} {es : List Event}

lemma written_of_none (h : p.subscriber = none) : p.written = [] := by
  unfold written
  rw [h]

lemma written_of_some (h : p.subscriber = some b) :
    p.written = (p.events.drop b.since).filter fun e => b.level.within e.level := by
  unfold written
  rw [h]

lemma Subscribed.of_append (h : p.Subscribed b) (hs : q.subscriber = p.subscriber)
    (he : q.events = p.events ++ es) : q.Subscribed b where
  subscriber_eq := hs.trans h.subscriber_eq
  since_le := by
    rw [he, List.length_append]
    exact h.since_le.trans (Nat.le_add_right _ _)

/-- What is reported after the subscriber came is written at its level. -/
lemma Subscribed.written_append (h : p.Subscribed b) (hs : q.subscriber = p.subscriber)
    (he : q.events = p.events ++ es) :
    q.written = p.written ++ es.filter fun e => b.level.within e.level := by
  rw [written_of_some (hs.trans h.subscriber_eq), written_of_some h.subscriber_eq, he,
    List.drop_append_of_le_length h.since_le, List.filter_append]

end Process

namespace Settings

variable {s : Settings} {level : Level} {p q : Process} {ks : List Keyword} {b : Subscriber}

/-- What a start reports. -/
def reports (s : Settings) (p : Process) : List Event :=
  (newcomers p.registry.names s.preloadKeywords).map .interned ++
    [.initialized s.preloadKeywords.length
      (p.registry.size + (newcomers p.registry.names s.preloadKeywords).length)]

lemma Started.size_eq (h : s.Started level p ks q) : q.registry.size =
    p.registry.size + (newcomers p.registry.names s.preloadKeywords).length := by
  rw [Registry.size, h.names_eq, List.length_append]
  rfl

/-- The first start installs the subscriber. -/
lemma Started.subscribed (h : s.Started level p ks q) (hp : p.subscriber = none) :
    q.Subscribed ⟨level, s.logAnsi, p.events.length⟩ ∧
      q.written = (s.reports p).filter fun e => level.within e.level := by
  have hs : q.subscriber = some ⟨level, s.logAnsi, p.events.length⟩ := by
    rw [h.subscriber_eq, hp]
    rfl
  have he : q.events = p.events ++ s.reports p := by
    rw [h.events_eq, hp, h.size_eq]
    simp [reports]
  refine ⟨⟨hs, ?_⟩, ?_⟩
  · rw [he, List.length_append]
    exact Nat.le_add_right _ _
  · rw [Process.written_of_some hs, he, List.drop_left]

/-- A later one reports that it was not the first. -/
lemma Started.of_subscribed (h : s.Started level p ks q) (hp : p.Subscribed b) :
    q.subscriber = p.subscriber ∧ q.events = p.events ++ .subscriberKept :: s.reports p := by
  constructor
  · rw [h.subscriber_eq, hp.subscriber_eq]
    rfl
  · rw [h.events_eq, hp.subscriber_eq, h.size_eq]
    simp [reports]

end Settings

namespace Script

variable {K : Set MemberKey} {depth : Nat} {s : Session} {c : Command} {cs : List Command}
  {p q : Process} {a : Answer} {b : Subscriber}

lemma Session.run_concat (depth : Nat) (s : Session) (cs : List Command) (c : Command) :
    (s.run depth (cs ++ [c])).2 = (c.run depth (s.run depth cs).2).2 := by
  rw [run_append, run_cons, run_nil]

namespace Command.Reported

/-- Only a start changes the subscriber. -/
lemma subscriber_of_not_starting (h : c.Reported K p a q) (hc : c.starting? = none) :
    q.subscriber = p.subscriber := by
  cases h with
  | quiet _ h => exact h.subscriber_eq
  | refused _ h => exact h.subscriber_eq
  | started hs => cases hc.symm.trans hs

lemma subscribed (h : c.Reported K p a q) (hp : p.Subscribed b) : q.Subscribed b := by
  cases h with
  | quiet _ h => exact hp.of_append h.subscriber_eq h.events_eq
  | refused _ h =>
    have hq := hp.of_append h.subscriber_eq h.events_eq
    exact hq.of_append rfl rfl
  | started _ h =>
    obtain ⟨hs, he⟩ := h.of_subscribed hp
    exact hp.of_append hs he

lemma exists_started {st : Settings} {level : Level} (h : c.Reported K p a q)
    (hc : c.starting? = some (st, level)) : ∃ ks, st.Started level p ks q := by
  cases h with
  | quiet hn => cases hn.symm.trans hc
  | refused hn => cases hn.symm.trans hc
  | started hc' h =>
    cases hc'.symm.trans hc
    exact ⟨_, h⟩

end Command.Reported

/-- What every command does, whatever functions fail with. -/
lemma Command.reported (depth : Nat) (s : Session) (c : Command) :
    c.Reported Set.univ s.process (c.run depth s).1 (c.run depth s).2.process :=
  (c.run_reported depth (fun v _ => v.failsOnly_univ) fun _ _ => Set.mem_univ _).1

namespace Session

lemma subscriber_run (depth : Nat) (s : Session) (h : ∀ c ∈ cs, c.starting? = none) :
    (s.run depth cs).2.process.subscriber = s.process.subscriber := by
  induction cs generalizing s with
  | nil => rfl
  | cons c cs ih =>
    obtain ⟨hc, h⟩ := List.forall_mem_cons.1 h
    rw [run_cons, ih _ h, (c.reported depth s).subscriber_of_not_starting hc]

lemma subscribed_run (depth : Nat) (h : s.process.Subscribed b) (cs : List Command) :
    (s.run depth cs).2.process.Subscribed b := by
  induction cs generalizing s with
  | nil => exact h
  | cons c cs ih => exact ih ((c.reported depth s).subscribed h)

/-- The first start of a run, and what it leaves. -/
lemma exists_started {st : Settings} {level : Level} (depth : Nat)
    (hcs : ∀ d ∈ cs, d.starting? = none) (hc : c.starting? = some (st, level)) :
    (initial.run depth cs).2.process.subscriber = none ∧
      ∃ ks, st.Started level (initial.run depth cs).2.process ks
        (initial.run depth (cs ++ [c])).2.process := by
  refine ⟨subscriber_run depth initial hcs, ?_⟩
  rw [run_concat]
  exact (c.reported depth _).exists_started hc

end Session

end Script

end ObjectModel
