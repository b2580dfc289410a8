import Mathlib
import ObjectModel.Value.Equality

/-!
What equality looks at: of scalars all there is, of everything else an identity.
-/

namespace ObjectModel.Value

/-- The identity that a value has of its own: that of the binding for a function that is bound, else
that of its body. -/
def identity? : Value → Option Ident
  | list i _ | object i _ | map i _ => some i
  | function ⟨_, _, some (i, _)⟩ => some i
  | function ⟨_, .native i _, none⟩ => some i
  | _ => none

/-- Equal values are the same scalar, have one identity or are builtins that are not bound. -/
lemma same_cases {a b : Value} (h : a.same b) :
    a = b ∨ a.kind = .float ∨ (∃ i, a.identity? = some i ∧ b.identity? = some i) ∨
      ∃ f c, a = .function f ∧ f.body = .builtin c ∧ f.receiver = none := by
  unfold same at h
  split at h
  · exact .inl rfl
  · exact .inl rfl
  · exact .inl (congrArg _ (eq_of_beq h))
  · exact .inl (congrArg _ (eq_of_beq h))
  · exact .inr (.inl rfl)
  · exact .inl (congrArg _ (eq_of_beq h))
  · exact .inl (congrArg _ (eq_of_beq h))
  · exact .inr (.inr (.inl ⟨_, rfl, congrArg some (eq_of_beq h).symm⟩))
  · exact .inr (.inr (.inl ⟨_, rfl, congrArg some (eq_of_beq h).symm⟩))
  · exact .inr (.inr (.inl ⟨_, rfl, congrArg some (eq_of_beq h).symm⟩))
  · next f g =>
    obtain ⟨name, body, receiver⟩ := f
    obtain ⟨name', body', receiver'⟩ := g
    obtain ⟨hb, hr⟩ := Bool.and_eq_true_iff.1 h
    match receiver, receiver', hr with
    | some (i, r), some (j, r'), hr =>
      exact .inr (.inr (.inl ⟨i, rfl, congrArg some (eq_of_beq hr).symm⟩))
    | none, none, _ =>
      match body, body', hb with
      | .builtin c, _, _ => exact .inr (.inr (.inr ⟨_, c, rfl, rfl, rfl⟩))
      | .native i _, .native j _, hb =>
        exact .inr (.inr (.inl ⟨i, rfl, congrArg some (eq_of_beq hb).symm⟩))
  · cases h

/-- Equality is reflexive but for numbers with a fraction. -/
lemma beq_self {a : Value} (h : a.kind ≠ .float) : a == a := by
  rw [beq_def]
  cases a with
  | float x => exact absurd rfl h
  | function f =>
    obtain ⟨name, body, receiver⟩ := f
    refine Bool.and_eq_true_iff.2 ⟨?_, ?_⟩
    · cases body <;> exact beq_self_eq_true _
    · rcases receiver with _ | ⟨i, _⟩
      · rfl
      · exact beq_self_eq_true i
  | nil | null => rfl
  | _ => exact beq_self_eq_true _

/-- The value is NaN itself; an aggregate that has it inside is not. -/
def isNaN : Value → Bool
  | float x => x.isNaN
  | _ => false

/-- NaN alone is not equal to itself. -/
lemma beq_self_eq (a : Value) : (a == a) = !a.isNaN := by
  cases a with
  | float x => exact x.same_self
  | _ => exact beq_self nofun

/-- Equality is symmetric, for numbers with a fraction too. -/
lemma beq_comm (a b : Value) : (a == b) = (b == a) := by
  rw [beq_def, beq_def]
  cases a with
  | bool x =>
    cases b with
    | bool y => exact Bool.beq_comm
    | _ => rfl
  | int n =>
    cases b with
    | int m => exact Bool.beq_comm
    | _ => rfl
  | float x =>
    cases b with
    | float y => exact x.same_comm y
    | _ => rfl
  | str s =>
    cases b with
    | str t => exact Bool.beq_comm
    | _ => rfl
  | keyword j =>
    cases b with
    | keyword k => exact Bool.beq_comm
    | _ => rfl
  | list i _ =>
    cases b with
    | list j _ => exact Bool.beq_comm
    | _ => rfl
  | object i _ =>
    cases b with
    | object j _ => exact Bool.beq_comm
    | _ => rfl
  | map i _ =>
    cases b with
    | map j _ => exact Bool.beq_comm
    | _ => rfl
  | function f =>
    cases b with
    | function g =>
      obtain ⟨name, body, receiver⟩ := f
      obtain ⟨name', body', receiver'⟩ := g
      have hb : body.same body' = body'.same body := by
        cases body <;> cases body' <;> first | exact Bool.beq_comm | rfl
      simp only [same, Callable.same, hb]
      rcases receiver with _ | ⟨i, _⟩ <;> rcases receiver' with _ | ⟨j, _⟩
      · rfl
      · rfl
      · rfl
      · exact congrArg (body'.same body && ·) Bool.beq_comm
    | _ => rfl
  | nil | null => cases b <;> rfl

end ObjectModel.Value
