import Mathlib
import ObjectModel.Proofs.Equality
import ObjectModel.Script.Observe

/-!
Equality is a partial equivalence: symmetric and transitive, and reflexive where it is defined.

What it compares can be read off each value alone (`Value.face?`): of a number with a fraction the
number that its bits stand for, of an aggregate an identity. Two values are equal if both have a
face and it is one, and only NaN has none. Main statement: `Value.equality_laws`.
-/

namespace ObjectModel

/-! ### Equality by what can be read off -/

/-- Symmetric, transitive, and reflexive on what is `Defined` and on nothing else. -/
structure IsPartialEquivalence {α : Type} (r : α → α → Prop) (Defined : α → Prop) : Prop where
  symm {a b : α} : r a b → r b a
  trans {a b c : α} : r a b → r b c → r a c
  self_iff {a : α} : r a a ↔ Defined a

/-- `f` reads something off them, and it is the same. -/
def Shared {α β : Type} (f : α → Option β) (a b : α) : Prop := f a = f b ∧ (f a).isSome

lemma isPartialEquivalence_shared {α β : Type} (f : α → Option β) :
    IsPartialEquivalence (Shared f) fun a => (f a).isSome where
  symm h := ⟨h.1.symm, h.1 ▸ h.2⟩
  trans h h' := ⟨h.1.trans h'.1, h.2⟩
  self_iff := and_iff_right rfl

/-- Lists compared item by item. -/
lemma IsPartialEquivalence.forall₂ {α : Type} {r : α → α → Prop} {Defined : α → Prop}
    (h : IsPartialEquivalence r Defined) :
    IsPartialEquivalence (List.Forall₂ r) fun as => ∀ a ∈ as, Defined a where
  symm hab := hab.flip.imp fun _ _ => h.symm
  trans {as bs cs} hab hbc := by
    induction hab generalizing cs with
    | nil => exact hbc
    | cons hab _ ih =>
      obtain _ | ⟨hbc, hs⟩ := hbc
      exact .cons (h.trans hab hbc) (ih hs)
  self_iff := List.forall₂_same.trans (forall₂_congr fun _ _ => h.self_iff)

/-! ### Numbers -/

namespace Binary64

variable {x y : Binary64}

/-- What a number stands for that is not NaN. -/
inductive Number where
  | finite (q : ℚ)
  | infinite (negative : Bool)

/-- Sign and magnitude. -/
def value (x : Binary64) : ℚ := (if x.negative then -1 else 1) * (x.significand * 2 ^ x.exponent)

def number? (x : Binary64) : Option Number :=
  if x.isNaN then none
  else some (if x.isInfinite then .infinite x.negative else .finite x.value)

/-- A finite magnitude as a multiple of the least one above zero. -/
def units (x : Binary64) : ℕ := x.significand * 2 ^ (x.exponentBits - 1)

lemma fractionBits_lt (x : Binary64) : x.fractionBits < leadingBit := Nat.mod_lt _ (by decide)

/-- The three fields are all there is. -/
lemma ext_fields (hs : x.negative = y.negative) (he : x.exponentBits = y.exponentBits)
    (hf : x.fractionBits = y.fractionBits) : x = y := by
  obtain ⟨a⟩ := x
  obtain ⟨b⟩ := y
  have ha := a.toNat_lt
  have hb := b.toNat_lt
  simp only [negative, exponentBits, fractionBits, leadingBit, decide_eq_decide,
    UInt64.le_iff_toNat_le] at hs he hf
  refine congrArg mk (UInt64.toNat_inj.1 ?_)
  have h63 : (0x8000000000000000 : UInt64).toNat = 9223372036854775808 := rfl
  rw [h63] at hs
  omega

lemma significand_lt (x : Binary64) : x.significand < 2 * leadingBit := by
  have hf := x.fractionBits_lt
  unfold significand
  split <;> omega

lemma leadingBit_le (h : x.exponentBits ≠ 0) : leadingBit ≤ x.significand := by
  rw [significand, if_neg h]
  omega

/-- Of two magnitudes the one with the higher exponent bits is greater. -/
lemma units_lt (h : x.exponentBits < y.exponentBits) : x.units < y.units := by
  have hy : leadingBit * 2 ^ (y.exponentBits - 1) ≤ y.units :=
    Nat.mul_le_mul_right _ (leadingBit_le (by omega))
  by_cases hx : x.exponentBits = 0
  · calc
      x.units = x.fractionBits := by simp [units, significand, hx]
      _ < leadingBit := x.fractionBits_lt
      _ ≤ leadingBit * 2 ^ (y.exponentBits - 1) := Nat.le_mul_of_pos_right _ (Nat.two_pow_pos _)
      _ ≤ y.units := hy
  · calc
      x.units < 2 * leadingBit * 2 ^ (x.exponentBits - 1) :=
        Nat.mul_lt_mul_of_pos_right x.significand_lt (Nat.two_pow_pos _)
      _ = leadingBit * 2 ^ x.exponentBits := by
        rw [Nat.mul_comm 2, Nat.mul_assoc, ← Nat.pow_succ', Nat.succ_eq_add_one,
          Nat.sub_add_cancel (Nat.pos_of_ne_zero hx)]
      _ ≤ leadingBit * 2 ^ (y.exponentBits - 1) :=
        Nat.mul_le_mul_left _ (Nat.pow_le_pow_right (by decide) (by omega))
      _ ≤ y.units := hy

lemma fields_of_units (h : x.units = y.units) :
    x.exponentBits = y.exponentBits ∧ x.fractionBits = y.fractionBits := by
  have he : x.exponentBits = y.exponentBits := by
    rcases Nat.lt_trichotomy x.exponentBits y.exponentBits with hlt | he | hlt
    · exact absurd h (units_lt hlt).ne
    · exact he
    · exact absurd h (units_lt hlt).ne'
  have hs : x.significand = y.significand := by
    rw [units, units, he] at h
    exact Nat.eq_of_mul_eq_mul_right (Nat.two_pow_pos _) h
  refine ⟨he, ?_⟩
  unfold significand at hs
  rw [he] at hs
  split at hs <;> omega

lemma isZero_iff : x.isZero ↔ x.units = 0 := by
  have hl : leadingBit ≠ 0 := by decide
  by_cases h : x.exponentBits = 0 <;> simp [isZero, units, significand, h, hl]

/-- The least magnitude above zero is 2 to the power of -1074. -/
lemma magnitude_eq (x : Binary64) :
    (x.significand : ℚ) * 2 ^ x.exponent = x.units * 2 ^ (-1074 : ℤ) := by
  by_cases h : x.exponentBits = 0
  · simp [units, exponent, h]
  · have he : x.exponent = ((x.exponentBits - 1 : ℕ) : ℤ) + -1074 := by
      rw [exponent, if_neg h]
      omega
    rw [he, zpow_add₀ two_ne_zero, zpow_natCast, units, Nat.cast_mul, Nat.cast_pow, mul_assoc]
    rfl

/-- Only the two zeros have one value under different bits. -/
lemma value_eq_iff : x.value = y.value ↔ x = y ∨ x.isZero ∧ y.isZero := by
  unfold value
  rw [magnitude_eq, magnitude_eq, ← mul_assoc, ← mul_assoc,
    mul_left_inj' (zpow_ne_zero _ two_ne_zero), isZero_iff, isZero_iff]
  constructor
  · intro h
    have hu : (if x.negative then -1 else 1 : ℤ) * x.units =
        (if y.negative then -1 else 1) * y.units := by
      exact_mod_cast h
    by_cases hs : x.negative = y.negative
    · have he : x.units = y.units := by
        rw [hs] at hu
        split at hu <;> omega
      obtain ⟨hx, hf⟩ := fields_of_units he
      exact .inl (ext_fields hs hx hf)
    · refine .inr ?_
      cases hx : x.negative <;> cases hy : y.negative <;> simp [hx, hy] at hs hu <;> omega
  · rintro (rfl | ⟨hx, hy⟩)
    · rfl
    · rw [hx, hy, Nat.cast_zero, mul_zero, mul_zero]

lemma not_isZero_of_isInfinite (h : x.isInfinite) : ¬ x.isZero := by
  simp only [isInfinite, isZero, Bool.and_eq_true, beq_iff_eq] at h ⊢
  omega

lemma eq_of_isInfinite (hx : x.isInfinite) (hy : y.isInfinite)
    (hs : x.negative = y.negative) : x = y := by
  simp only [isInfinite, Bool.and_eq_true, beq_iff_eq] at hx hy
  exact ext_fields hs (hx.1.trans hy.1.symm) (hx.2.trans hy.2.symm)

lemma isSome_number? (x : Binary64) : x.number?.isSome = !x.isNaN := by
  unfold number?
  split <;> simp [*]

lemma number?_eq_iff (hx : x.isNaN = false) (hy : y.isNaN = false) :
    x.number? = y.number? ↔ x.bits = y.bits ∨ x.isZero ∧ y.isZero := by
  have hb : x.bits = y.bits ↔ x = y := by
    obtain ⟨a⟩ := x
    obtain ⟨b⟩ := y
    exact mk.injEq a b ▸ Iff.rfl
  rw [hb]
  constructor
  · intro h
    cases hi : x.isInfinite <;> cases hj : y.isInfinite <;> simp [number?, hx, hy, hi, hj] at h
    · exact value_eq_iff.1 h
    · exact .inl (eq_of_isInfinite hi hj h)
  · rintro (rfl | ⟨hzx, hzy⟩)
    · rfl
    · have hi : x.isInfinite = false := by
        by_contra hi
        exact not_isZero_of_isInfinite (Bool.eq_true_of_not_eq_false hi) hzx
      have hj : y.isInfinite = false := by
        by_contra hj
        exact not_isZero_of_isInfinite (Bool.eq_true_of_not_eq_false hj) hzy
      simp [number?, hx, hy, hi, hj, value_eq_iff.2 (.inr ⟨hzx, hzy⟩)]

lemma same_iff_bits (hx : x.isNaN = false) (hy : y.isNaN = false) :
    x.same y ↔ x.bits = y.bits ∨ x.isZero ∧ y.isZero := by
  simp [same, hx, hy]

/-- **Numbers are equal** if their bits stand for one number, which those of NaN do not. -/
theorem same_iff : x.same y ↔ Shared number? x y := by
  cases hx : x.isNaN with
  | true => simp [Shared, isSome_number?, same, hx]
  | false =>
    cases hy : y.isNaN with
    | true =>
      have hne : x.number? ≠ y.number? := by
        intro h
        simpa [isSome_number?, hx, hy] using congrArg Option.isSome h
      simp [Shared, hne, same, hy]
    | false => simp [Shared, isSome_number?, hx, same_iff_bits hx hy, number?_eq_iff hx hy]

end Binary64

/-! ### Values -/

/-- What equality compares. -/
inductive Face where
  | nil
  | null
  | bool (b : Bool)
  | int (n : Int64)
  | number (n : Binary64.Number)
  | str (s : String)
  | keyword (k : Keyword)
  | list (id : Ident)
  | object (id : Ident)
  | map (id : Ident)
  /-- The body, and the identity of the binding if there is one. -/
  | function (body : Builtin ⊕ Ident) (binding : Option Ident)

def Body.face {ν : Type} : Body ν → Builtin ⊕ Ident
  | .builtin b => .inl b
  | .native id _ => .inr id

lemma Body.same_iff {ν : Type} (b c : Body ν) : b.same c ↔ b.face = c.face := by
  cases b <;> cases c <;> simp [same, face]

lemma Callable.same_iff {ν : Type} (f g : Callable ν) : f.same g ↔
    f.body.face = g.body.face ∧ f.receiver.map Prod.fst = g.receiver.map Prod.fst := by
  rw [same, Bool.and_eq_true, Body.same_iff]
  refine and_congr_right fun _ => ?_
  cases f.receiver <;> cases g.receiver <;> simp

namespace Value

variable {a b c : Value}

def face? : Value → Option Face
  | nil => some .nil
  | null => some .null
  | bool b => some (.bool b)
  | int n => some (.int n)
  | float x => x.number?.map .number
  | str s => some (.str s)
  | keyword k => some (.keyword k)
  | list id _ => some (.list id)
  | object id _ => some (.object id)
  | map id _ => some (.map id)
  | function f => some (.function f.body.face (f.receiver.map Prod.fst))

lemma isSome_face? (a : Value) : a.face?.isSome = !a.isNaN := by
  cases a with
  | float x => rw [face?, Option.isSome_map, x.isSome_number?, isNaN]
  | _ => rfl

/-- **Values are equal** if they have one face. -/
theorem beq_iff {a b : Value} : a == b ↔ Shared face? a b := by
  have hn : Function.Injective (Option.map Face.number) :=
    Option.map_injective fun _ _ => Face.number.inj
  rw [beq_def]
  cases a <;> cases b <;>
    simp [same, Shared, face?, Callable.same_iff, Binary64.same_iff, hn.eq_iff]

lemma sameItems_iff {as bs : List Value} :
    sameItems as bs ↔ List.Forall₂ (fun a b => a == b) as bs := by
  induction as generalizing bs with
  | nil => cases bs <;> simp [sameItems]
  | cons a as ih => cases bs <;> simp [sameItems, ih]

lemma isPartialEquivalence_beq :
    IsPartialEquivalence (fun a b : Value => a == b) fun a => a.isNaN = false where
  symm h := beq_iff.2 ((isPartialEquivalence_shared face?).symm (beq_iff.1 h))
  trans h h' := beq_iff.2 ((isPartialEquivalence_shared face?).trans (beq_iff.1 h) (beq_iff.1 h'))
  self_iff {a} := by
    rw [beq_iff, (isPartialEquivalence_shared face?).self_iff, isSome_face?, Bool.not_eq_true']

lemma isPartialEquivalence_sameItems :
    IsPartialEquivalence (fun as bs : List Value => sameItems as bs)
      fun as => ∀ a ∈ as, a.isNaN = false := by
  simpa only [sameItems_iff] using isPartialEquivalence_beq.forall₂

open Script in
/-- **Equality is a partial equivalence**, of values and of lists item by item, that is defined
where there is no NaN; NaN inside an aggregate or inside an item does not count. Numbers with a
fraction are equal if their bits are, or if both are zero. A program that compares two copies of a
value gets the same answer as for the value and itself. -/
theorem equality_laws :
    IsPartialEquivalence (fun a b : Value => a == b) (fun a => a.isNaN = false) ∧
    IsPartialEquivalence (fun as bs : List Value => sameItems as bs)
      (fun as => ∀ a ∈ as, a.isNaN = false) ∧
    (∀ as bs, sameItems as bs ↔ List.Forall₂ (fun a b => a == b) as bs) ∧
    (∀ x y : Binary64, float x == float y ↔ Shared Binary64.number? x y) ∧
    (∀ x : Binary64, x.number? = none ↔ x.isNaN) ∧
    (∀ x y : Binary64, x.isNaN = false → y.isNaN = false →
      (float x == float y ↔ x.bits = y.bits ∨ x.isZero ∧ y.isZero)) ∧
    (∀ regs a m n p, Entries.get? m regs = some a → Entries.get? n regs = some a →
      (Observe.equal (.register m) (.register n)).run regs p = .ok (.equal !a.isNaN) p) ∧
    (∀ regs i as m n p, Entries.get? m regs = some (.list i as) →
      Entries.get? n regs = some (.list i as) →
      (Observe.equalItems (.register m) (.register n)).run regs p =
        .ok (.equalItems (as.all fun a => !a.isNaN)) p) := by
  refine ⟨isPartialEquivalence_beq, isPartialEquivalence_sameItems, fun _ _ => sameItems_iff,
    fun _ _ => Binary64.same_iff, fun x => ?_, fun x y hx hy => Binary64.same_iff_bits hx hy,
    fun regs a m n p hm hn => ?_, fun regs i as m n p hm hn => ?_⟩
  · rw [← Option.isNone_iff_eq_none, ← Option.not_isSome, x.isSome_number?]
    simp
  · rw [← beq_self_eq]
    simp only [Observe.run, Expr.eval, hm, hn]
    rfl
  · have hs : sameItems as as = as.all fun a => !a.isNaN := by
      rw [Bool.eq_iff_iff, isPartialEquivalence_sameItems.self_iff]
      simp
    rw [← hs]
    simp only [Observe.run, Expr.eval, hm, hn]
    rfl

end Value

end ObjectModel
