import Mathlib
import ObjectModel.Proofs.Binding
import ObjectModel.Proofs.Enumeration
import ObjectModel.Proofs.Reporting.Script

/-!
Names and capabilities as keys of members. Neither can stand in for the other: a capability of a
record reads as its function whatever the record holds, a name reads as the member of that name and
as nothing else, and a keyword is as good a key as its text. Main statement:
`Script.spaces_apart`.
-/

namespace ObjectModel

namespace Value

/-- The function of a builtin as it is read from a record: bound to it, with a new identity. -/
def slot (b : Builtin) (r : Value) (i : Ident) : Value :=
  .function ⟨b.name, .builtin b, some (i, r)⟩

/-- Whatever happened in the process before, a read of the key gives the value, which may depend on
the identity that a new binding gets. -/
def ReadsAs (r : Value) (key : MemberKey) (u : Ident → Value) : Prop :=
  ∀ p, ∃ q, r.member key p = .ok (u p.next) q

variable {r : Value} {s : String} {id : Ident} {entries : List (MapKey Keyword × Value)}

lemma readsAs_slot {es : List (Value × Value)} (h : r.Presents es) {c : Capability} {b : Builtin}
    (hc : c.builtin? = some b) : r.ReadsAs (.capability c) (slot b r) :=
  fun p => ⟨_, h.member_slot hc p⟩

/-- No value that is there has a tag. -/
lemma readsAs_typeTag (h : r.isAbsent = false) : r.ReadsAs (.capability .typeTag) fun _ => nil := by
  intro p
  have hs : r.stored? p.registry (.capability .typeTag) = none := by cases r <;> rfl
  rw [member_of_present h, hs]
  exact ⟨p, rfl⟩

lemma readsAs_object (id : Ident) (members : List (String × Value)) (s : String) :
    (object id members).ReadsAs (.name s) fun i =>
      ((Entries.get? s members).getD .nil).asRead (object id members) i :=
  fun p => member_object id members s p

lemma readsAs_map_builtin {b : Builtin} (hb : b = .get ∨ b = .has) :
    (map id entries).ReadsAs (.name b.name) (slot b (map id entries)) := by
  intro p
  refine ⟨_, member_builtin ?_⟩
  obtain rfl | rfl := hb <;> rfl

lemma readsAs_map_size :
    (map id entries).ReadsAs (.name "size") fun _ => ofCount entries.length := by
  intro p
  rw [member_of_present rfl]
  exact ⟨p, rfl⟩

lemma readsAs_map_other (hs : s ∉ ["size", "get", "has"]) :
    (map id entries).ReadsAs (.name s) fun _ => nil := by
  intro p
  have hn : (map id entries).stored? p.registry (.name s) = none := by
    simp only [List.mem_cons, List.not_mem_nil, or_false, not_or] at hs
    obtain ⟨h₁, h₂, h₃⟩ := hs
    rw [stored?, if_neg h₁, if_neg h₂, if_neg h₃]
  rw [member_of_present rfl, hn]
  exact ⟨p, rfl⟩

end Value

namespace Script

variable {ε : Type} {r : Value} {u : Ident → Value} {s : String} {key : KeyExpr}

/-! ### Keys as they are written -/

/-- However a key is written, making it takes no identity. -/
lemma KeyExpr.eval_apply (key : KeyExpr) (p : Process) :
    ∃ q, (key.eval : Act ε MemberKey) p = .ok key.key q ∧ q.next = p.next := by
  cases key with
  | keyword s =>
    refine ⟨(p.intern s).2, ?_, p.next_intern s⟩
    simp only [eval, Act.bind_apply, Act.intern_apply, Act.registry_apply,
      (p.holds_intern s).nameOf_eq, Act.pure_apply]
    rfl
  | _ => exact ⟨p, rfl, rfl⟩

/-- The command that reads the key from a register that holds `r`. -/
def Reads (r : Value) (key : KeyExpr) (u : Ident → Value) : Prop :=
  ∀ depth regs x p, Entries.get? x regs = some r →
    ∃ q, (Make.member (.register x) key).run depth regs p = .ok (some (u p.next)) q

lemma reads_of_readsAs (h : r.ReadsAs key.key u) : Reads r key u := by
  intro depth regs x p hx
  obtain ⟨q, hk, hn⟩ := key.eval_apply (ε := Fault) p
  obtain ⟨q', hq⟩ := h q
  have hv : (Expr.register x).eval regs p = .ok r p := by
    rw [Expr.eval, hx]
    rfl
  refine ⟨q', ?_⟩
  rw [Make.run, Act.bind_apply, hv]
  simp only [Act.bind_apply, hk, Act.mapError_apply, hq, hn]
  rfl

/-- The two ways to write a name as a key: as a text of any kind, and as the keyword with that text.
-/
def named (s : String) : List KeyExpr := [.name s, .keyword s]

lemma key_of_named (h : key ∈ named s) : key.key = .name s := by
  simp only [named, List.mem_cons, List.not_mem_nil, or_false] at h
  obtain rfl | rfl := h <;> rfl

/-- Keys are equal, and so are the errors that carry them, as what they were made from is. -/
lemma equalKeys_apply (key other : KeyExpr) (regs : Registers) (p : Process) :
    ∃ q, (Observe.equalKeys key other).run regs p =
      .ok (.equalKeys (key.key = other.key) (key.key = other.key)) q := by
  obtain ⟨q, hk, -⟩ := key.eval_apply (ε := Fault) p
  obtain ⟨q', ho, -⟩ := other.eval_apply (ε := Fault) q
  refine ⟨q', ?_⟩
  rw [Observe.run, Act.bind_apply, hk]
  simp only [Act.bind_apply, ho, beq_eq_decide, LookupError.mk.injEq, Act.pure_apply]

/-- **Names and capabilities are apart.** The capabilities of a record read as their functions bound
to it, whatever names its members have, and what is there never has a tag. A name reads from an
object as its own member of that name, else as nil, and from a map as one of three builtins, which
no entry hides, else as nil. That is so for a text and for the keyword with that text, which are
equal keys; a key made from a name and one made from a capability never are. -/
theorem spaces_apart :
    (∀ r es, r.Presents es → ∀ e ∈ [(Capability.recordKeys, Builtin.keys),
        (.recordValues, .values), (.iterator, .entries)],
      Reads r (.capability e.1) (r.slot e.2)) ∧
    (∀ r : Value, r.isAbsent = false → Reads r (.capability .typeTag) fun _ => .nil) ∧
    ∀ s, ∀ key ∈ named s,
      (∀ id members, Reads (.object id members) key fun i =>
        ((Entries.get? s members).getD .nil).asRead (.object id members) i) ∧
      (∀ id members, Entries.get? s members = none → Reads (.object id members) key fun _ => .nil) ∧
      (∀ id entries, s ∉ ["size", "get", "has"] → Reads (.map id entries) key fun _ => .nil) ∧
      (∀ id entries, s = "size" → Reads (.map id entries) key fun _ => .ofCount entries.length) ∧
      (∀ id entries, ∀ b ∈ [Builtin.get, .has], s = b.name →
        Reads (.map id entries) key ((Value.map id entries).slot b)) ∧
      (∀ other ∈ named s, ∀ regs p,
        ∃ q, (Observe.equalKeys key other).run regs p = .ok (.equalKeys true true) q) ∧
      ∀ c regs p,
        (∃ q, (Observe.equalKeys key (.capability c)).run regs p =
          .ok (.equalKeys false false) q) ∧
        ∃ q, (Observe.equalKeys (.capability c) key).run regs p =
          .ok (.equalKeys false false) q := by
  refine ⟨fun r es hr e hs => ?_, fun r hr => reads_of_readsAs (Value.readsAs_typeTag hr),
    fun s key hk => ?_⟩
  · simp only [List.mem_cons, List.not_mem_nil, or_false] at hs
    obtain rfl | rfl | rfl := hs <;> exact reads_of_readsAs (Value.readsAs_slot hr rfl)
  have hk := key_of_named hk
  have reads {r : Value} {u : Ident → Value} (h : r.ReadsAs (.name s) u) : Reads r key u :=
    reads_of_readsAs (hk ▸ h)
  refine ⟨fun id members => reads (Value.readsAs_object id members s), fun id members hn => ?_,
    fun id entries hs => reads (Value.readsAs_map_other hs), fun id entries hs => ?_,
    fun id entries b hb hs => ?_, fun other ho regs p => ?_, fun c regs p => ⟨?_, ?_⟩⟩
  -- Nil reads as itself, so no identity is taken for it.
  · have ho := Value.readsAs_object id members s
    rw [hn] at ho
    exact reads ho
  · exact reads (hs ▸ Value.readsAs_map_size)
  · refine reads (hs ▸ Value.readsAs_map_builtin ?_)
    simpa using hb
  · have h := equalKeys_apply key other regs p
    rw [hk, key_of_named ho, decide_eq_true rfl] at h
    exact h
  · have h := equalKeys_apply key (.capability c) regs p
    rw [hk] at h
    exact h
  · have h := equalKeys_apply (.capability c) key regs p
    rw [hk] at h
    exact h

end Script

end ObjectModel
