import Mathlib
import ObjectModel.Proofs.FirstOccurrence
import ObjectModel.Proofs.Pairing.Relators
import ObjectModel.Proofs.Registration

/-!
Starting a process from settings. Without a level nothing happens. With one, the names that are new
are registered in the order in which they first occur, and the first start decides on the
subscriber. Starting again, whatever has happened in between, gives the same keywords and registers
nothing. Main statement: `Settings.start_laws`.
-/

namespace ObjectModel

open List (Forall₂)

namespace Registry

variable {r r' : Registry} {name : String} {names : List String}

lemma eq_of_names (h : r.names = r'.names) : r = r' := by
  cases r
  cases r'
  cases h
  rfl

lemma names_intern_eq (r : Registry) (name : String) :
    (r.intern name).2.names = r.names ++ newcomers r.names [name] := by
  rw [names_intern, append_newcomers_singleton]

lemma names_register (r : Registry) (names : List String) :
    (r.register names).names = r.names ++ newcomers r.names names := by
  induction names generalizing r with
  | nil => exact (List.append_nil _).symm
  | cons name names ih =>
    rw [register_cons, ih, names_intern_eq, List.append_assoc, ← newcomers_cons]

/-- The keywords of names are the same in every later registry. -/
lemma eq_of_holds {js ks : List Keyword} (hr : r ≤ r') (hj : Forall₂ r.Holds js names)
    (hk : Forall₂ r'.Holds ks names) : js = ks := by
  induction hj generalizing ks with
  | nil =>
    cases hk
    rfl
  | cons h _ ih =>
    obtain _ | ⟨h', hk⟩ := hk
    rw [((h.mono hr).eq_iff h').2 rfl, ih hk]

end Registry

namespace Process

/-- The process after names have been asked for: the new ones are registered and reported. -/
def register (p : Process) (names : List String) : Process :=
  { p with
    registry := p.registry.register names
    events := p.events ++ (newcomers p.registry.names names).map Event.interned }

lemma register_nil (p : Process) : p.register [] = p := by simp [register]

lemma intern_snd (p : Process) (name : String) : (p.intern name).2 = p.register [name] := by
  unfold intern register
  split
  · next k h =>
    have hn : newcomers p.registry.names [name] = [] := by
      rw [newcomers_singleton, if_pos (Registry.find?_eq_some.1 h).mem]
    have hr : p.registry.register [name] = p.registry :=
      Registry.eq_of_names (by rw [Registry.names_register, hn, List.append_nil])
    rw [hr, hn, List.map_nil, List.append_nil]
  · next h =>
    rw [newcomers_singleton, if_neg (Registry.find?_eq_none.1 h)]
    rfl

lemma register_cons (p : Process) (name : String) (names : List String) :
    p.register (name :: names) = (p.intern name).2.register names := by
  have hr : p.registry.register [name] = (p.registry.intern name).2 := rfl
  rw [intern_snd]
  simp only [register, hr, Registry.register_cons, Registry.names_intern_eq]
  rw [newcomers_cons, List.map_append, List.append_assoc]

lemma subscriber_subscribe (p : Process) (l : Level) (ansi : Bool) :
    (p.subscribe l ansi).subscriber = some (p.subscriber.getD ⟨l, ansi, p.events.length⟩) := by
  unfold subscribe
  split
  · next b hb =>
    change p.subscriber = _
    rw [hb]
    rfl
  · next hb =>
    rw [hb]
    rfl

lemma events_subscribe (p : Process) (l : Level) (ansi : Bool) : (p.subscribe l ansi).events =
    p.events ++ if p.subscriber.isSome then [.subscriberKept] else [] := by
  unfold subscribe
  split
  · next b hb =>
    rw [hb]
    rfl
  · next hb =>
    rw [hb]
    exact (List.append_nil _).symm

end Process

/-- Asking for names one after the other gives the keyword of each. -/
lemma Act.internAll_apply {ε : Type} (names : List String) (p : Process) :
    ∃ ks, (Act.internAll names : Act ε (List Keyword)) p = .ok ks (p.register names) ∧
      Forall₂ (p.register names).registry.Holds ks names := by
  induction names generalizing p with
  | nil => exact ⟨[], by rw [p.register_nil]; rfl, .nil⟩
  | cons name names ih =>
    obtain ⟨ks, hq, hk⟩ := ih (p.intern name).2
    refine ⟨(p.intern name).1 :: ks, ?_, ?_⟩
    · rw [Act.internAll, Act.bind_apply, Act.intern_apply, p.register_cons]
      simp only [Act.bind_apply, hq]
      rfl
    · rw [p.register_cons]
      exact .cons ((p.holds_intern name).mono (Registry.le_register _ names)) hk

namespace Settings

variable {s : Settings} {level : Level} {p q : Process} {ks : List Keyword}

/-- How a process stands after it was started, compared with before. -/
structure Started (s : Settings) (level : Level) (p : Process) (ks : List Keyword) (q : Process) :
    Prop where
  /-- Each keyword has the name in its place. -/
  nameOf_eq : ks.map q.registry.nameOf = s.preloadKeywords
  /-- It is the keyword under which that name is found. -/
  find?_eq : s.preloadKeywords.map q.registry.find? = ks.map some
  names_eq : q.registry.names = p.registry.names ++ newcomers p.registry.names s.preloadKeywords
  /-- The first subscriber stays; a new one writes what comes after it. -/
  subscriber_eq : q.subscriber = some (p.subscriber.getD ⟨level, s.logAnsi, p.events.length⟩)
  next_eq : q.next = p.next
  events_eq : q.events = p.events ++ (if p.subscriber.isSome then [.subscriberKept] else []) ++
    (newcomers p.registry.names s.preloadKeywords).map .interned ++
    [.initialized s.preloadKeywords.length q.registry.size]

lemma start_of_error {e : SettingsError} (h : s.level = .error e) (p : Process) :
    s.start p = .error e p := by
  unfold start
  rw [h]
  rfl

lemma eq_of_level_error {e : SettingsError} (h : s.level = .error e) :
    e = .invalidLevel s.logLevel := by
  unfold Settings.level at h
  split at h
  · cases h
  · exact (Except.error.inj h).symm

/-- A start takes the subscriber, asks for the names and reports. -/
lemma start_of_level (h : s.level = .ok level) (p : Process) :
    ∃ ks, Forall₂ ((p.subscribe level s.logAnsi).register s.preloadKeywords).registry.Holds ks
        s.preloadKeywords ∧
      s.start p = .ok ks (((p.subscribe level s.logAnsi).register s.preloadKeywords).emit
        (.initialized ks.length
          ((p.subscribe level s.logAnsi).register s.preloadKeywords).registry.size)) := by
  obtain ⟨ks, hq, hk⟩ := Act.internAll_apply (ε := SettingsError) s.preloadKeywords
    (p.subscribe level s.logAnsi)
  refine ⟨ks, hk, ?_⟩
  unfold start
  rw [h]
  change (Act.internAll _ >>= _) (p.subscribe level s.logAnsi) = _
  rw [Act.bind_apply, hq]
  rfl

lemma started_of_level (h : s.level = .ok level) (p : Process) :
    ∃ ks q, s.start p = .ok ks q ∧ s.Started level p ks q ∧
      Forall₂ q.registry.Holds ks s.preloadKeywords := by
  obtain ⟨ks, hk, hs⟩ := start_of_level h p
  refine ⟨ks, _, hs, ⟨?_, ?_, ?_, ?_, ?_, ?_⟩, hk⟩
  · have hn := map_eq_of_forall₂ (g := id) (fun _ _ h => h.nameOf_eq) hk
    rwa [List.map_id] at hn
  · refine (map_eq_of_forall₂ ?_ hk).symm
    intro k name h
    exact (Registry.find?_eq_some.2 h).symm
  · change (Registry.register _ _).names = _
    rw [Registry.names_register, p.registry_subscribe]
  · exact p.subscriber_subscribe level s.logAnsi
  · exact p.next_subscribe level s.logAnsi
  · change (p.subscribe level s.logAnsi).events ++ _ ++ [_] = _
    rw [p.events_subscribe, p.registry_subscribe, hk.length_eq]
    rfl

/-- Where all its names are known already, a start registers nothing. -/
lemma registry_of_known (h : s.Started level p ks q)
    (hn : ∀ name ∈ s.preloadKeywords, name ∈ p.registry.names) : q.registry = p.registry :=
  Registry.eq_of_names (by rw [h.names_eq, newcomers_eq_nil hn, List.append_nil])

/-- **Starting** fails exactly with a level that is none, and then leaves everything as it was;
otherwise it gives the keywords of the names and registers the new ones. After it the same start
gives the same keywords and registers nothing, whatever was done in between. -/
theorem start_laws (s : Settings) (p : Process) :
    (∀ e, s.level = .error e → e = .invalidLevel s.logLevel ∧ s.start p = .error e p) ∧
    ∀ level, s.level = .ok level → ∃ ks q, s.start p = .ok ks q ∧ s.Started level p ks q ∧
      ∀ depth regs later, ∃ q',
        s.start ((⟨q, regs⟩ : Script.Session).run depth later).2.process = .ok ks q' ∧
        q'.registry = ((⟨q, regs⟩ : Script.Session).run depth later).2.process.registry := by
  refine ⟨fun e h => ⟨eq_of_level_error h, start_of_error h p⟩, fun level h => ?_⟩
  obtain ⟨ks, q, hs, hst, hk⟩ := started_of_level h p
  refine ⟨ks, q, hs, hst, fun depth regs later => ?_⟩
  have hle := Script.Session.le_run depth ⟨q, regs⟩ later
  generalize ((⟨q, regs⟩ : Script.Session).run depth later).2.process = p' at hle ⊢
  obtain ⟨ks', q', hs', hst', hk'⟩ := started_of_level h p'
  have hkn : ∀ name ∈ s.preloadKeywords, name ∈ p'.registry.names := by
    intro name hn
    refine (Registry.le_iff.1 hle).subset ?_
    rw [start_ok hs, Registry.mem_register]
    exact .inr hn
  have hr := registry_of_known hst' hkn
  have hks : ks = ks' := Registry.eq_of_holds (hle.trans hr.ge) hk hk'
  exact ⟨q', hks ▸ hs', hr⟩

end Settings

end ObjectModel
