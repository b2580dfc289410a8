import Mathlib
import ObjectModel.Proofs.Asking.Script

/-!
The registry over whole runs, from an empty one on. Main statement: it knows exactly the names that
have been asked for, each under one keyword that keeps its name for good, and nothing but asking
for a new name changes it (`Script.Session.registry_laws`).
-/

namespace ObjectModel

/-- Whether it ends well or with an error, the computation leaves the registry as it is. -/
def Act.KeepsRegistry {ε α : Type} (act : Act ε α) : Prop :=
  ∀ p q, ((∃ a, act p = .ok a q) ∨ ∃ e, act p = .error e q) → q.registry = p.registry

lemma Act.Asks.keepsRegistry {ε α : Type} {act : Act ε α} (h : act.Asks []) :
    act.KeepsRegistry := by
  rintro p q (⟨a, ha⟩ | ⟨e, he⟩)
  · have hp := h p
    rw [ha] at hp
    cases hp with
    | ok hp => exact hp.registry_eq
  · have hp := h p
    rw [he] at hp
    cases hp with
    | error hx hp =>
      rw [List.prefix_nil.1 hx] at hp
      exact hp.registry_eq

lemma Act.internAll_ok {ε : Type} (names : List String) (p : Process) :
    ∃ ks q, (Act.internAll names : Act ε (List Keyword)) p = .ok ks q := by
  induction names generalizing p with
  | nil => exact ⟨_, _, rfl⟩
  | cons name names ih =>
    obtain ⟨ks, q, hq⟩ := ih (p.intern name).2
    refine ⟨(p.intern name).1 :: ks, q, ?_⟩
    rw [Act.internAll, Act.bind_apply, Act.intern_apply]
    simp only [Act.bind_apply, hq]
    rfl

namespace Process

/-- A keyword that has been handed out, at a later moment. -/
structure Keeps (p : Process) (k : Keyword) (name : String) : Prop where
  nameOf_eq : p.registry.nameOf k = name
  find?_eq : p.registry.find? name = some k
  intern_eq_iff : ∀ other, (p.intern other).1 = k ↔ other = name

lemma Keeps.of_holds {p : Process} {k : Keyword} {name : String} (h : p.registry.Holds k name) :
    p.Keeps k name := by
  refine ⟨h.nameOf_eq, Registry.find?_eq_some.2 h, fun other => ?_⟩
  have hk := h.mono (p.registry.le_intern other)
  rw [intern_fst]
  exact (p.registry.holds_intern other).eq_iff hk

end Process

namespace Settings

variable {s : Settings} {p q : Process}

lemma start_ok {ks : List Keyword} (h : s.start p = .ok ks q) :
    q.registry = p.registry.register s.preloadKeywords := by
  have hp := asks_start s p
  rw [h] at hp
  obtain ⟨hp⟩ := hp
  rw [hp.registry_eq]
  unfold names
  cases hl : s.level with
  | ok level => rfl
  | error e =>
    unfold start at h
    rw [hl] at h
    cases h

/-- Only a bad level keeps a process from starting. -/
lemma start_error {e : SettingsError} (h : s.start p = .error e q) : q.registry = p.registry := by
  have hp := asks_start s p
  rw [h] at hp
  cases hl : s.level with
  | error e =>
    unfold names at hp
    rw [hl] at hp
    obtain _ | ⟨hx, hp⟩ := hp
    rw [hp.registry_eq, List.prefix_nil.1 hx, Registry.register_nil]
  | ok level =>
    obtain ⟨ks, q', hq⟩ := Act.internAll_ok (ε := SettingsError) s.preloadKeywords
      (p.subscribe level s.logAnsi)
    unfold start at h
    rw [hl] at h
    change (Act.internAll _ >>= _) (p.subscribe level s.logAnsi) = _ at h
    rw [Act.bind_apply, hq] at h
    cases h

end Settings

namespace Script.Session

lemma le_run (depth : Nat) (s : Session) (cs : List Command) :
    s.process.registry ≤ (s.run depth cs).2.process.registry := by
  obtain ⟨xs, -, h⟩ := s.run_asked depth cs
  rw [h.registry_eq]
  exact Registry.le_register _ _

/-- What the registry of a session is when these names have been asked for. -/
structure Knows (s : Session) (asked : List String) : Prop where
  /-- It finds each of them and no other, under the keyword that asking again gives. -/
  find?_eq (name : String) : s.process.registry.find? name =
    if name ∈ asked then some (s.process.intern name).1 else none
  size_eq : s.process.registry.size = asked.toFinset.card
  size_le (depth : Nat) (later : List Command) :
    s.process.registry.size ≤ (s.run depth later).2.process.registry.size
  /-- A keyword has its name when it is handed out. -/
  keeps (name : String) : (s.process.intern name).2.Keeps (s.process.intern name).1 name
  /-- And at every later moment, whatever happens until then. -/
  keeps_later (name : String) (depth : Nat) (regs : Registers) (later : List Command) :
    ((⟨(s.process.intern name).2, regs⟩ : Session).run depth later).2.process.Keeps
      (s.process.intern name).1 name

lemma knows_of_registry_eq {s : Session} {asked : List String}
    (h : s.process.registry = Registry.empty.register asked) : s.Knows asked := by
  constructor
  · intro name
    rw [s.process.intern_fst, Registry.find?_eq, h]
    simp only [Registry.mem_register_empty]
  · rw [h, Registry.size_register_empty]
  · intro depth later
    exact Registry.size_mono (le_run depth s later)
  · intro name
    exact .of_holds (s.process.holds_intern name)
  · intro name depth regs later
    have hle := le_run depth ⟨(s.process.intern name).2, regs⟩ later
    exact .of_holds ((s.process.holds_intern name).mono hle)

/-- **The registry over whole runs.** It knows the names that have been asked for, and nothing but
asking changes it: a new name adds one entry and a known one none, a command asks for the names that
it mentions, in order and up to the fault if it has one, a start for those of its settings if it
succeeds, and working with values for none. -/
theorem registry_laws {ε : Type} (depth : Nat) (cs : List Command) :
    (∃ asked, Asked cs ((initial.run depth cs).1.map Reply.answer) asked ∧
      (initial.run depth cs).2.Knows asked) ∧
    (∀ (p : Process) name, (p.intern name).2.registry.names =
      if name ∈ p.registry.names then p.registry.names else p.registry.names ++ [name]) ∧
    (∀ (s : Session) depth (c : Command), ∃ names, names <+: c.names ∧
      (c.run depth s).2.process.registry = s.process.registry.register names) ∧
    (∀ (st : Settings) p q ks, st.start p = .ok ks q →
      q.registry = p.registry.register st.preloadKeywords) ∧
    (∀ (st : Settings) p q e, st.start p = .error e q → q.registry = p.registry) ∧
    (∀ (v : Value) key, (v.member key).KeepsRegistry) ∧
    (∀ depth (f : Function) args, (f.call depth args).KeepsRegistry) ∧
    (∀ (f : Function) r, (f.bind r : Act ε Function).KeepsRegistry) ∧
    (∀ (b : Builtin) this args, (b.run this args : Act ε Value).KeepsRegistry) ∧
    (∀ items, (Value.newList items : Act ε Value).KeepsRegistry) ∧
    (∀ members, (Value.newObject members : Act ε Value).KeepsRegistry) ∧
    (∀ entries, (Value.newMap entries : Act ε Value).KeepsRegistry) ∧
    (∀ members, (Value.newEntries members : Act ε Value).KeepsRegistry) ∧
    (∀ v, (shapeOf v : Act ε Shape).KeepsRegistry) := by
  refine ⟨?_, fun p name => ?_, fun s depth c => ?_, fun st p q ks h => Settings.start_ok h,
    fun st p q e h => Settings.start_error h, fun v key => (v.asks_member key).keepsRegistry,
    fun depth f args => (f.asks_call depth args).keepsRegistry,
    fun f r => (f.asks_bind r).keepsRegistry,
    fun b this args => (b.asks_run this args).keepsRegistry,
    fun _ => (Value.asks_newList _).keepsRegistry, fun _ => (Value.asks_newObject _).keepsRegistry,
    fun _ => (Value.asks_newMap _).keepsRegistry, fun _ => (Value.asks_newEntries _).keepsRegistry,
    fun v => (asks_shapeOf v).keepsRegistry⟩
  · obtain ⟨asked, ha, hs⟩ := initial.run_asked depth cs
    exact ⟨asked, ha, knows_of_registry_eq hs.registry_eq⟩
  · rw [p.registry_intern, Registry.names_intern]
  · obtain ⟨names, hn, -, h⟩ := c.run_asked depth s
    exact ⟨names, hn, h.registry_eq⟩

end Script.Session

end ObjectModel
