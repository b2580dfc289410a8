import Mathlib
import ObjectModel.Proofs.Asking.Script
import ObjectModel.Proofs.Pairing.Since

/-!
Commands that have nothing to do with each other may run in either order. The two orders give out
identities and keywords in different orders, so what is held afterwards is the same only up to
these, and nothing that looks at it can tell. Main statement:
`Script.Session.independent_commands_commute`.
-/

namespace ObjectModel

open List (Forall₂)
open Relator
open Script

/-! ### Commands with nothing in common -/

namespace Script

variable {regs : Registers} {into into' : Option String} {v u : Option Value}

/-- Neither command writes a register that the other reads or writes. -/
def Command.Independent (c d : Command) : Prop :=
  (∀ x ∈ c.into, x ∉ d.reads ∧ x ∉ d.into) ∧ ∀ x ∈ d.into, x ∉ c.reads

instance (c d : Command) : Decidable (c.Independent d) :=
  inferInstanceAs (Decidable (_ ∧ _))

lemma agreeOn_write {xs : List String} (h : ∀ x ∈ into, x ∉ xs) :
    AgreeOn xs (regs.write into v) regs := by
  intro x hx
  rw [get?_write, if_neg]
  rintro ⟨hi, -⟩
  exact h x hi hx

/-- Values in different registers may be written in either order. -/
lemma same_write_write (h : ∀ x ∈ into, x ∉ into') :
    Registers.Same ((regs.write into v).write into' u) ((regs.write into' u).write into v) := by
  intro x
  simp only [get?_write]
  by_cases hx : into = some x
  · have hx' : into' ≠ some x := h x hx
    simp [hx']
  · simp [hx]

end Script

/-! ### Ties between the two orders -/

/-- The first `n` identities stand for themselves; the next `a` and the `b` after them have changed
places. -/
def Tie.crossed (n a b : Nat) : Tie := Block 0 0 n ⊔ Block n (n + b) a ⊔ Block (n + a) n b

namespace Tie

variable {n a b i j : Nat}

lemma lt_of_crossed (h : (crossed n a b).ids i j) :
    i < n ∧ i = j ∨ n ≤ i ∧ n ≤ j ∧ i < n + a + b ∧ j < n + b + a := by
  obtain h | h := ids_sup h
  · obtain h | h := ids_sup h
    · obtain ⟨c, d, -, -, k, hk, rfl, rfl⟩ := h
      left
      omega
    · have hlt := lt_of_block h
      right
      omega
  · have hlt := lt_of_block h
    right
    omega

lemma before_crossed (n a b : Nat) : (crossed n a b).Before (n + a + b) (n + b + a) where
  valid := by
    rintro i c j d ((h | h) | h)
    all_goals exact ⟨h.1, h.2.1⟩
  lt := by
    intro i j h
    have hlt := lt_of_crossed h
    omega
  biUnique := by
    refine biUnique_sup (biUnique_sup biUnique_block biUnique_block ?_) biUnique_block ?_
    · intro i j i' j' h h'
      have hlt := lt_of_block h
      have hle := lt_of_block h'
      omega
    · intro i j i' j' h h'
      have hle := lt_of_block h'
      obtain h | h := ids_sup h
      all_goals
        have hlt := lt_of_block h
        omega

end Tie

/-! ### Registers of two runs -/

/-- The same registers hold values that are alike up to what is tied. -/
abbrev RegistersTied (T : Tie) (K : Keyword → Keyword → Prop) : Registers → Registers → Prop :=
  Forall₂ (Pair.Rel Eq (Alike T K))

lemma RegistersTied.mono {T T' : Tie} {K K' : Keyword → Keyword → Prop} {regs regs' : Registers}
    (hT : T ≤ T') (hK : K ≤ K') (h : RegistersTied T K regs regs') :
    RegistersTied T' K' regs regs' :=
  h.imp fun _ _ => Pair.Rel.imp (fun _ _ => id) fun _ _ => Alike.mono hT hK

/-- What one command does from two processes is alike, what it has made itself included. -/
lemma outcome_since {p q : Process} {T : Tie} (hT : T.Before p.next q.next) {regs : Registers}
    (hr : RegistersTied T (p.registry.Namesakes q.registry) regs regs) (depth : Nat) {c : Command}
    (hc : c.asksRegistry = false) :
    ∃ w : Progress, w.Leads p (c.outcome depth regs p).process ∧
      w.Leads q (c.outcome depth regs q).process ∧
      Option.Rel (Alike (T ⊔ Block p.next q.next w.given)
          ((c.outcome depth regs p).process.registry.Namesakes
            (c.outcome depth regs q).process.registry))
        (c.outcome depth regs p).value (c.outcome depth regs q).value ∧
      (c.outcome depth regs p).answer = (c.outcome depth regs q).answer := by
  have hj : (p.since q hT).Joins .none p q := ⟨Progress.leads_none p, Progress.leads_none q⟩
  have hr' : (p.since q hT).RegistersAlike .none regs regs := hr.mono le_sup_left le_rfl
  obtain ⟨w, -, ⟨⟨hp, hq⟩, hv⟩, ha⟩ := Pairing.command_outcome depth hj hr' c
  refine ⟨w, hp, hq, ?_, ha hc⟩
  rw [hp.registry_eq, hq.registry_eq]
  exact hv

/-- Going on from there, nothing can be told apart. -/
lemma answers_since {p q : Process} {T : Tie} (hT : T.Before p.next q.next)
    {regs regs' : Registers} (hr : RegistersTied T (p.registry.Namesakes q.registry) regs regs')
    (depth : Nat) {cs : List Command} (hcs : ∀ c ∈ cs, c.asksRegistry = false) :
    ((⟨p, regs⟩ : Session).run depth cs).1.map Reply.answer =
      ((⟨q, regs'⟩ : Session).run depth cs).1.map Reply.answer := by
  have h : (p.since q hT).Together .none ⟨p, regs⟩ ⟨q, regs'⟩ :=
    ⟨⟨Progress.leads_none p, Progress.leads_none q⟩, hr.mono le_sup_left le_rfl⟩
  obtain ⟨-, -, -, ha⟩ := Pairing.session_run depth h cs
  exact ha hcs

/-! ### Either order -/

namespace Script

variable {p : Process} {regs : Registers} {c d : Command}

/-- After a command that writes nothing it reads, a command does what it would do without, but from
another process. -/
lemma Command.run_after (depth : Nat) (p : Process) (regs : Registers)
    (h : ∀ x ∈ c.into, x ∉ d.reads) :
    d.run depth (c.run depth ⟨p, regs⟩).2 =
      ((d.outcome depth regs (c.outcome depth regs p).process).answer,
        ⟨(d.outcome depth regs (c.outcome depth regs p).process).process,
          (regs.write c.into (c.outcome depth regs p).value).write d.into
            (d.outcome depth regs (c.outcome depth regs p).process).value⟩) := by
  rw [run_eq, run_eq, d.outcome_congr (agreeOn_write h)]

lemma Command.le_outcome (depth : Nat) (p : Process) (regs : Registers) (c : Command) :
    p.next ≤ (c.outcome depth regs p).process.next ∧
      p.registry ≤ (c.outcome depth regs p).process.registry := by
  obtain ⟨xs, -, -, h⟩ := c.run_asked depth ⟨p, regs⟩
  rw [run_eq] at h
  refine ⟨h.next_le, ?_⟩
  rw [h.registry_eq]
  exact p.registry.le_register xs

/-- Two sessions that have come from `s` hold the same up to which identities and which keywords
were given out since. -/
structure Session.SameSince (s : Session) (T : Tie) (t t' : Session) : Prop where
  biUnique_ids : BiUnique T.ids
  /-- An identity that there was before stands for itself. -/
  eq_of_old {i j : Nat} : T.ids i j → i < s.process.next ∨ j < s.process.next → i = j
  next_eq : t.process.next = t'.process.next
  /-- Keywords that there were before are the same in both. -/
  registry_le : s.process.registry ≤ t.process.registry ∧ s.process.registry ≤ t'.process.registry
  names_iff (name : String) :
    name ∈ t.process.registry.names ↔ name ∈ t'.process.registry.names
  registers (x : String) :
    Option.Rel (Alike T (t.process.registry.Namesakes t'.process.registry))
      (Entries.get? x t.registers) (Entries.get? x t'.registers)

/-- Two ways from `p`: one command with the outcome `a` and then the other with `b'`, or the other
with the outcome `b` and then the one with `a'`. -/
structure Crossing (p : Process) (a a' b b' : Outcome) (u w : Progress) : Prop where
  one : u.Leads p a.process
  other : w.Leads p b.process
  one_after : u.Leads b.process a'.process
  other_after : w.Leads a.process b'.process
  one_answer : a.answer = a'.answer
  other_answer : b'.answer = b.answer
  one_value : Option.Rel (Alike (Tie.crossed p.next u.given w.given)
    (b'.process.registry.Namesakes a'.process.registry)) a.value a'.value
  other_value : Option.Rel (Alike (Tie.crossed p.next u.given w.given)
    (b'.process.registry.Namesakes a'.process.registry)) b'.value b.value

namespace Crossing

variable {a a' b b' : Outcome} {u w : Progress}

lemma next_eq (h : Crossing p a a' b b' u w) : b'.process.next = a'.process.next := by
  rw [h.other_after.next_eq, h.one.next_eq, h.one_after.next_eq, h.other.next_eq,
    Nat.add_right_comm]

lemma before (h : Crossing p a a' b b' u w) :
    (Tie.crossed p.next u.given w.given).Before b'.process.next a'.process.next := by
  rw [h.other_after.next_eq, h.one.next_eq, h.one_after.next_eq, h.other.next_eq]
  exact Tie.before_crossed _ _ _

lemma names_iff (h : Crossing p a a' b b' u w) (name : String) :
    name ∈ b'.process.registry.names ↔ name ∈ a'.process.registry.names := by
  rw [h.other_after.registry_eq, h.one.registry_eq, h.one_after.registry_eq,
    h.other.registry_eq]
  simp only [Registry.mem_register]
  exact or_right_comm

lemma registry_le (h : Crossing p a a' b b' u w) :
    p.registry ≤ b'.process.registry ∧ p.registry ≤ a'.process.registry :=
  ⟨h.one.registry_le.trans h.other_after.registry_le,
    h.other.registry_le.trans h.one_after.registry_le⟩

/-- What was there stays tied to itself, and what each command has made is tied to what it makes in
the other order. -/
lemma registers_tied (h : Crossing p a a' b b' u w)
    (hr : RegistersTied (Block 0 0 p.next) (p.registry.Namesakes p.registry) regs regs)
    (into into' : Option String) :
    RegistersTied (Tie.crossed p.next u.given w.given)
      (b'.process.registry.Namesakes a'.process.registry)
      ((regs.write into a.value).write into' b'.value)
      ((regs.write into a'.value).write into' b.value) := by
  have hT : Block 0 0 p.next ≤ Tie.crossed p.next u.given w.given :=
    le_sup_left.trans le_sup_left
  have hK : p.registry.Namesakes p.registry ≤
      b'.process.registry.Namesakes a'.process.registry :=
    fun _ _ => .mono h.registry_le.1 h.registry_le.2
  exact rel_write (rel_write (hr.mono hT hK) h.one_value into) h.other_value into'

lemma sameSince (h : Crossing p a a' b b' u w)
    (hr : RegistersTied (Block 0 0 p.next) (p.registry.Namesakes p.registry) regs regs)
    {into into' : Option String} (hi : ∀ x ∈ into, x ∉ into') :
    Session.SameSince ⟨p, regs⟩ (Tie.crossed p.next u.given w.given)
      ⟨b'.process, (regs.write into a.value).write into' b'.value⟩
      ⟨a'.process, (regs.write into' b.value).write into a'.value⟩ where
  biUnique_ids := h.before.biUnique
  eq_of_old := by
    intro i j hij hold
    obtain ⟨-, he⟩ | ⟨hni, hnj, -⟩ := Tie.lt_of_crossed hij
    · exact he
    · exact absurd hold (not_or.2 ⟨hni.not_gt, hnj.not_gt⟩)
  next_eq := h.next_eq
  registry_le := h.registry_le
  names_iff := h.names_iff
  registers x := by
    -- the registers are tied place by place when both orders write in one order
    rw [← same_write_write hi x]
    exact Entries.rel_get? biUnique_eq rfl (h.registers_tied hr into into')

lemma answers_eq (h : Crossing p a a' b b' u w)
    (hr : RegistersTied (Block 0 0 p.next) (p.registry.Namesakes p.registry) regs regs)
    {into into' : Option String} (hi : ∀ x ∈ into, x ∉ into') (depth : Nat) {cs : List Command}
    (hcs : ∀ c ∈ cs, c.asksRegistry = false) :
    ((⟨b'.process, (regs.write into a.value).write into' b'.value⟩ : Session).run depth cs).1.map
        Reply.answer =
      ((⟨a'.process, (regs.write into' b.value).write into a'.value⟩ : Session).run depth cs).1.map
        Reply.answer := by
  rw [answers_since h.before (h.registers_tied hr into into') depth hcs,
    Session.run_congr (same_write_write hi)]

end Crossing

/-- The two orders of two commands, both with the registers that there are before them. -/
lemma exists_crossing (depth : Nat)
    (hr : RegistersTied (Block 0 0 p.next) (p.registry.Namesakes p.registry) regs regs)
    (hc : c.asksRegistry = false) (hd : d.asksRegistry = false) :
    ∃ u w, Crossing p (c.outcome depth regs p)
      (c.outcome depth regs (d.outcome depth regs p).process) (d.outcome depth regs p)
      (d.outcome depth regs (c.outcome depth regs p).process) u w := by
  obtain ⟨hn, hrc⟩ := c.le_outcome depth p regs
  obtain ⟨hm, hrd⟩ := d.le_outcome depth p regs
  have hz : 0 + p.next = p.next := Nat.zero_add _
  obtain ⟨u, hu, hu', hv, ha⟩ := outcome_since (Tie.before_block hz.le (hz.trans_le hm))
    (hr.mono le_rfl fun _ _ => .mono le_rfl hrd) depth hc
  obtain ⟨w, hw, hw', hv', ha'⟩ := outcome_since (Tie.before_block (hz.trans_le hn) hz.le)
    (hr.mono le_rfl fun _ _ => .mono hrc le_rfl) depth hd
  refine ⟨u, w, hu, hw', hu', hw, ha, ha', ?_, ?_⟩
  · rw [hw'.next_eq] at hv
    have hT : Block 0 0 p.next ⊔ Block p.next (p.next + w.given) u.given ≤
        Tie.crossed p.next u.given w.given := le_sup_left
    exact option_imp (fun _ _ => Alike.mono hT fun _ _ => .mono hw.registry_le le_rfl) hv
  · rw [hu.next_eq] at hv'
    have hT : Block 0 0 p.next ⊔ Block (p.next + u.given) p.next w.given ≤
        Tie.crossed p.next u.given w.given := sup_le_sup_right le_sup_left _
    exact option_imp (fun _ _ => Alike.mono hT fun _ _ => .mono le_rfl hu'.registry_le) hv'

namespace Session

/-- From `s` on it does not matter which of two commands comes first. -/
structure Commutes (depth : Nat) (s : Session) (c d : Command) : Prop where
  first_eq : (c.run depth s).1 = (c.run depth (d.run depth s).2).1
  second_eq : (d.run depth (c.run depth s).2).1 = (d.run depth s).1
  exists_tie : ∃ T, s.SameSince T (d.run depth (c.run depth s).2).2
    (c.run depth (d.run depth s).2).2
  later_eq (depth' : Nat) (later : List Command) : (∀ e ∈ later, e.asksRegistry = false) →
    ((d.run depth (c.run depth s).2).2.run depth' later).1.map Reply.answer =
      ((c.run depth (d.run depth s).2).2.run depth' later).1.map Reply.answer

/-- What the session holds stands for itself. -/
def Mirrored (s : Session) : Prop :=
  RegistersTied (Block 0 0 s.process.next) (s.process.registry.Namesakes s.process.registry)
    s.registers s.registers

lemma mirrored_run (depth : Nat) (cs : List Command) : (initial.run depth cs).2.Mirrored := by
  have h : (Process.initial.since Process.initial Tie.before_bot).Together .none initial initial :=
    ⟨⟨Progress.leads_none _, Progress.leads_none _⟩, .nil⟩
  obtain ⟨w, -, ⟨⟨hs, -⟩, hr⟩, -⟩ := Pairing.session_run depth h cs
  have hn : (initial.run depth cs).2.process.next = w.given := hs.next_eq.trans (Nat.zero_add _)
  unfold Mirrored
  rw [hn, hs.registry_eq]
  refine RegistersTied.mono ?_ le_rfl hr
  exact sup_le bot_le le_rfl

/-- **Independent commands commute** in every state that a script can reach. In either order each
has the same answer, errors included, and what they have made cannot be told apart later. -/
theorem independent_commands_commute (depth : Nat) (before : List Command) (depth' : Nat)
    (c d : Command) (hc : c.asksRegistry = false) (hd : d.asksRegistry = false)
    (h : c.Independent d) : (initial.run depth before).2.Commutes depth' c d := by
  have hs := mirrored_run depth before
  generalize (initial.run depth before).2 = s at hs ⊢
  obtain ⟨p, regs⟩ := s
  obtain ⟨hcd, hdc⟩ := h
  have hi : ∀ x ∈ c.into, x ∉ d.into := fun x hx => (hcd x hx).2
  obtain ⟨u, w, hx⟩ := exists_crossing depth' hs hc hd
  have hend := Command.run_after depth' p regs fun x hx => (hcd x hx).1
  have hend' := Command.run_after depth' p regs hdc
  constructor
  · rw [Command.run_eq, hend']
    exact hx.one_answer
  · rw [hend, Command.run_eq]
    exact hx.other_answer
  · rw [hend, hend']
    exact ⟨_, hx.sameSince hs hi⟩
  · intro depth'' later hlater
    rw [hend, hend']
    exact hx.answers_eq hs hi depth'' hlater

end Session

/-- An object for both of the commands that follow. -/
def sharedObject : List Command :=
  [.make (.expr (.object [("k", .int 1)])) (some "o") false]

/-- Two commands that register a name each, and keep what they make of the object. -/
def listShared : Command :=
  .make (.expr (.list [.keyword "a", .register "o"])) (some "l") false
def mapShared : Command :=
  .make (.expr (.map [(.keyword "b", .register "o")])) (some "m") false

theorem Session.shared_object_commutes :
    listShared.asksRegistry = false ∧ mapShared.asksRegistry = false ∧
      listShared.Independent mapShared ∧
      (initial.run 1 (sharedObject ++ [listShared, mapShared])).2.process.registry.find? "a" ≠
        (initial.run 1 (sharedObject ++ [mapShared, listShared])).2.process.registry.find? "a" ∧
      (initial.run 1 sharedObject).2.Commutes 1 listShared mapShared :=
  ⟨rfl, rfl, by decide, by decide,
    independent_commands_commute 1 sharedObject 1 listShared mapShared rfl rfl (by decide)⟩

end Script

end ObjectModel
