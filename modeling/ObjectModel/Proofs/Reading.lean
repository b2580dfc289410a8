import Mathlib
import ObjectModel.Member.Access

/-!
What reading a member gives, in one step and along a path.

Only absence refuses a member, and what a read gives is never null and never a function that is
bound to nothing. So a path breaks off at the first key that is read from nil, and only there.
-/

namespace ObjectModel

variable {ε : Type}

@[simp] lemma Act.pure_apply {α : Type} (a : α) (p : Process) :
    (pure a : Act ε α) p = .ok a p := rfl

namespace Value

/-- A value that cannot be asked for this member. -/
def Refuses (v : Value) (key : MemberKey) : Prop := v.isAbsent ∧ key ≠ .capability .typeTag

/-- What a read gives: something other than null, and a function only if it is bound. -/
def IsSettled (v : Value) : Prop := v ≠ .null ∧ ∀ f, v = .function f → f.isBound

lemma isSettled_of_plain {v : Value} (hv : v ≠ .null) (hf : v.isCallable = false) :
    v.IsSettled := by
  refine ⟨hv, ?_⟩
  rintro f rfl
  simp [isCallable] at hf

/-! ### One read -/

lemma nilMember_error {key : MemberKey} (h : key ≠ .capability .typeTag) (p : Process) :
    nilMember key p = .error ⟨key⟩ (p.emit (.nilLookup key)) := by
  unfold nilMember
  split
  · exact absurd rfl h
  · rfl

lemma member_of_absent {v : Value} (h : v.isAbsent) (key : MemberKey) :
    v.member key = nilMember key := by
  simp [member, h]

lemma member_of_present {v : Value} (h : v.isAbsent = false) (key : MemberKey) (p : Process) :
    v.member key p = v.settle (v.stored? p.registry key) p := by
  simp [member, h, Act.bind_apply]

lemma bind_of_bound {f : Function} {b : Ident × Value} (h : f.receiver = some b) (r : Value)
    (p : Process) : (f.bind r : Act ε Function) p = .ok f p := by
  simp [Callable.bind, h]

lemma bind_of_unbound {f : Function} (h : f.receiver = none) (r : Value) (p : Process) :
    (f.bind r : Act ε Function) p =
      .ok { f with receiver := some (p.next, r) } { p with next := p.next + 1 } := by
  simp [Callable.bind, h, Act.bind_apply]

lemma settle_function (r : Value) (f : Function) (p : Process) :
    (r.settle (some (.function f)) : Act ε Value) p =
      match f.receiver with
      | some _ => .ok (.function f) p
      | none =>
        .ok (.function { f with receiver := some (p.next, r) }) { p with next := p.next + 1 } := by
  cases h : f.receiver with
  | some b => simp [settle, Act.bind_apply, bind_of_bound h]
  | none => simp [settle, Act.bind_apply, bind_of_unbound h]

lemma settle_plain (r : Value) {v : Value} (hv : v ≠ .null) (hf : v.isCallable = false)
    (p : Process) : (r.settle (some v) : Act ε Value) p = .ok v p := by
  cases v with
  | null => exact absurd rfl hv
  | function f => simp [isCallable] at hf
  | _ => rfl

/-- The ways a read can end, by what is stored. -/
lemma settle_cases (r : Value) (stored : Option Value) (p : Process) :
    (stored = none ∨ stored = some .null) ∧ (r.settle stored : Act ε Value) p = .ok .nil p ∨
    (∃ f b, stored = some (.function f) ∧ f.receiver = some b ∧
      (r.settle stored : Act ε Value) p = .ok (.function f) p) ∨
    (∃ f, stored = some (.function f) ∧ f.receiver = none ∧
      (r.settle stored : Act ε Value) p =
        .ok (.function { f with receiver := some (p.next, r) }) { p with next := p.next + 1 }) ∨
    (∃ v, stored = some v ∧ v ≠ .null ∧ v.isCallable = false ∧
      (r.settle stored : Act ε Value) p = .ok v p) := by
  rcases stored with _ | v
  · exact .inl ⟨.inl rfl, rfl⟩
  by_cases hv : v = .null
  · subst hv
    exact .inl ⟨.inr rfl, rfl⟩
  cases hf : v.isCallable with
  | false => exact .inr (.inr (.inr ⟨v, rfl, hv, hf, settle_plain r hv hf p⟩))
  | true =>
    obtain ⟨f, rfl⟩ : ∃ f, v = .function f := by cases v <;> simp_all [isCallable]
    have hs := settle_function (ε := ε) r f p
    cases h : f.receiver with
    | some b => rw [h] at hs; exact .inr (.inl ⟨f, b, rfl, h, hs⟩)
    | none => rw [h] at hs; exact .inr (.inr (.inl ⟨f, rfl, h, hs⟩))

lemma member_error {v : Value} {key : MemberKey} (h : v.Refuses key) (p : Process) :
    v.member key p = .error ⟨key⟩ (p.emit (.nilLookup key)) := by
  rw [member_of_absent h.1, nilMember_error h.2]

lemma member_ok {v : Value} {key : MemberKey} (h : ¬ v.Refuses key) (p : Process) :
    ∃ u q, v.member key p = .ok u q ∧ u.IsSettled := by
  cases hv : v.isAbsent with
  | true =>
    obtain rfl : key = .capability .typeTag := by
      by_contra hk
      exact h ⟨hv, hk⟩
    exact ⟨.str nilTag, p, by rw [member_of_absent hv]; rfl,
      isSettled_of_plain (by simp) rfl⟩
  | false =>
    rw [member_of_present hv]
    obtain ⟨-, hs⟩ | ⟨f, b, -, hf, hs⟩ | ⟨f, -, -, hs⟩ | ⟨u, -, hu, hc, hs⟩ :=
      settle_cases (ε := LookupError) v (v.stored? p.registry key) p
    · exact ⟨_, _, hs, isSettled_of_plain (by simp) rfl⟩
    · refine ⟨_, _, hs, by simp, ?_⟩
      rintro g ⟨⟩
      simp [Callable.isBound, hf]
    · refine ⟨_, _, hs, by simp, ?_⟩
      rintro g ⟨⟩
      rfl
    · exact ⟨_, _, hs, isSettled_of_plain hu hc⟩

lemma member_eq_error_iff {v : Value} {key : MemberKey} {p q : Process} {e : LookupError} :
    v.member key p = .error e q ↔ v.Refuses key ∧ e = ⟨key⟩ ∧ q = p.emit (.nilLookup key) := by
  constructor
  · intro he
    by_cases h : v.Refuses key
    · rw [member_error h] at he
      cases he
      exact ⟨h, rfl, rfl⟩
    · obtain ⟨u, q', hu, -⟩ := member_ok h p
      rw [hu] at he
      cases he
  · rintro ⟨h, rfl, rfl⟩
    exact member_error h p

@[simp] lemma memberPath_nil (v : Value) (p : Process) : v.memberPath [] p = .ok v p := rfl

end Value

end ObjectModel
