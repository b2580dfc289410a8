import Mathlib
import ObjectModel.Proofs.Reading
import ObjectModel.Script.Session

/-!
Whole numbers of the host as values. A value has 64 bits and a sign for a whole number, which is
room for all numbers of the two signed types. A size does not always fit: from 2^63 on it reads as a
negative number, 2^64 below itself. Main statement: `Host.whole_number_laws`.
-/

namespace ObjectModel

open Script

/-- Under `key` the value has the number of its characters, items or entries. -/
inductive Value.Counted : Value → String → ℕ → Prop where
  | str (s : String) : Counted (.str s) "length" s.length
  | list (id : Ident) (items : List Value) : Counted (.list id items) "length" items.length
  | map (id : Ident) (entries : List (MapKey Keyword × Value)) :
      Counted (.map id entries) "size" entries.length

lemma Value.Counted.member_eq {v : Value} {key : String} {k : ℕ} (h : v.Counted key k)
    (p : Process) : v.member (.name key) p = .ok (.int (Int64.ofNat k)) p := by
  cases h <;> rfl

namespace Host

variable {κ ε : Type} {z w : ℤ}

/-- The whole number that host data is, in however many options. -/
def whole? : Host κ → Option ℤ
  | int32 n => some n.toInt
  | int64 n => some n.toInt
  | size n => some n.toNat
  | present h => h.whole?
  | _ => none

lemma range_of_whole? {h : Host κ} (hz : h.whole? = some z) : -2 ^ 63 ≤ z ∧ z < 2 ^ 64 := by
  induction h with
  | int32 n =>
    cases hz
    have hl := n.le_toInt
    have hu := n.toInt_lt
    omega
  | int64 n =>
    cases hz
    have hl := n.le_toInt
    have hu := n.toInt_lt
    omega
  | size n =>
    cases hz
    have hu := n.toNat_lt
    omega
  | present h ih => exact ih hz
  | _ => cases hz

/-! ### What a number reads as -/

/-- What `z` reads as: a number that is too large comes out 2^64 below itself. -/
def reading (z : ℤ) : ℤ := if z < 2 ^ 63 then z else z - 2 ^ 64

lemma reading_eq_self_iff : reading z = z ↔ z < 2 ^ 63 := by
  unfold reading
  split <;> omega

/-- Numbers on the same side of 2^63 stay in order. -/
lemma reading_le_reading_iff (hs : z < 2 ^ 63 ↔ w < 2 ^ 63) : reading z ≤ reading w ↔ z ≤ w := by
  unfold reading
  split <;> split <;> omega

/-- So they stay apart. -/
lemma reading_eq_reading_iff (hs : z < 2 ^ 63 ↔ w < 2 ^ 63) : reading z = reading w ↔ z = w :=
  calc
    reading z = reading w ↔ reading z ≤ reading w ∧ reading w ≤ reading z := le_antisymm_iff
    _ ↔ z ≤ w ∧ w ≤ z := and_congr (reading_le_reading_iff hs) (reading_le_reading_iff hs.symm)
    _ ↔ z = w := le_antisymm_iff.symm

lemma toInt_ofInt_eq_reading (hl : -2 ^ 63 ≤ z) (hu : z < 2 ^ 64) :
    (Int64.ofInt z).toInt = reading z := by
  unfold reading
  split
  · next h => exact Int64.toInt_ofInt_of_le hl h
  · next h =>
    -- The word of `z` is also that of a number in range.
    have hw : Int64.ofInt z = Int64.ofInt (z - 2 ^ 64) := by
      rw [Int64.ofInt_sub]
      simp
    rw [hw]
    exact Int64.toInt_ofInt_of_le (by omega) (by omega)

/-- Data of all three types is read by its low 64 bits. -/
lemma toValue_of_whole? {h : Host Keyword} (hz : h.whole? = some z) :
    h.toValue = .int (Int64.ofInt z) := by
  induction h with
  | int32 n =>
    cases hz
    rw [toValue, Int64.ofInt_int32ToInt]
  | int64 n =>
    cases hz
    rw [toValue, Int64.ofInt_toInt]
  | size n =>
    cases hz
    rw [toValue, Int64.ofInt_eq_ofNat, ← UInt64.toInt64_ofNat', UInt64.ofNat_toNat]
  | present h ih => exact ih hz
  | _ => cases hz

/-- Nothing is registered for a whole number. -/
lemma intern_of_whole? {h : Host String} (hz : h.whole? = some z) (p : Process) :
    ∃ g : Host Keyword, (h.intern : Act ε (Host Keyword)) p = .ok g p ∧ g.whole? = some z := by
  induction h with
  | int32 n => exact ⟨.int32 n, rfl, hz⟩
  | int64 n => exact ⟨.int64 n, rfl, hz⟩
  | size n => exact ⟨.size n, rfl, hz⟩
  | present h ih =>
    obtain ⟨g, hg, hw⟩ := ih hz
    refine ⟨.present g, ?_, hw⟩
    rw [intern, Act.bind_apply, hg]
    rfl
  | _ => cases hz

/-- A command makes the number from the data, in every process and whatever the registers hold, and
does nothing else. -/
def Makes (h : Host String) (n : Int64) : Prop :=
  ∀ (depth : ℕ) (regs : Registers) (p : Process),
    (Make.host h).run depth regs p = .ok (some (.int n)) p

lemma makes_of_whole? {h : Host String} (hz : h.whole? = some z) : h.Makes (Int64.ofInt z) := by
  intro depth regs p
  obtain ⟨g, hg, hw⟩ := h.intern_of_whole? (ε := Fault) hz p
  simp only [Make.run, Act.bind_apply, hg, Act.pure_apply, toValue_of_whole? hw]

/-- **Whole numbers of the host.** From data of each of the three types, in however many options, a
command makes a whole number, and it is the same one exactly if it is below 2^63; a larger one is
negative. Two numbers on the same side of that bound are equal as values exactly if they are equal,
and are in the same order; across it a size is equal to the number 2^64 below it. A count of
characters, items or entries is read just as data of the same number is. -/
theorem whole_number_laws (g h : Host String) {z w : ℤ} (hz : g.whole? = some z)
    (hw : h.whole? = some w) :
    ∃ m n : Int64, g.Makes m ∧ h.Makes n ∧
      m.toInt = reading z ∧ (m.toInt = z ↔ z < 2 ^ 63) ∧ (m.toInt < 0 ↔ z < 0 ∨ 2 ^ 63 ≤ z) ∧
      ((Value.int m == Value.int n) ↔ z = w ∨ z = w + 2 ^ 64 ∨ w = z + 2 ^ 64) ∧
      ((z < 2 ^ 63 ↔ w < 2 ^ 63) →
        ((Value.int m == Value.int n) ↔ z = w) ∧ (m.toInt ≤ n.toInt ↔ z ≤ w)) ∧
      ∀ (v : Value) (key : String) (k : ℕ), v.Counted key k → z = k →
        ∀ p, v.member (.name key) p = .ok (.int m) p := by
  obtain ⟨hlz, huz⟩ := range_of_whole? hz
  obtain ⟨hlw, huw⟩ := range_of_whole? hw
  have hm : (Int64.ofInt z).toInt = reading z := toInt_ofInt_eq_reading hlz huz
  have hn : (Int64.ofInt w).toInt = reading w := toInt_ofInt_eq_reading hlw huw
  have he : (Value.int (Int64.ofInt z) == Value.int (Int64.ofInt w)) = true ↔
      reading z = reading w := by
    rw [Value.beq_def, Value.same, beq_iff_eq, ← Int64.toInt_inj, hm, hn]
  refine ⟨_, _, makes_of_whole? hz, makes_of_whole? hw, hm, ?_, ?_, he.trans ?_,
    fun hs => ⟨he.trans (reading_eq_reading_iff hs), ?_⟩, ?_⟩
  · rw [hm, reading_eq_self_iff]
  · rw [hm, reading]
    split <;> omega
  · unfold reading
    split <;> split <;> omega
  · rw [hm, hn, reading_le_reading_iff hs]
  · rintro v key k hk rfl p
    rw [hk.member_eq, Int64.ofInt_eq_ofNat]

/-- The last size that is kept, in an option, and the first that is not. -/
theorem whole_number_laws_at_bound :
    (present (size 9223372036854775807) : Host String).whole? = some 9223372036854775807 ∧
    (size 9223372036854775808 : Host String).whole? = some 9223372036854775808 ∧
    (∃ m n : Int64, (present (size 9223372036854775807)).Makes m ∧
      (size 9223372036854775808).Makes n ∧ m.toInt = 9223372036854775807 ∧
      (Value.int m == Value.int n) = false) ∧
    ∃ n : Int64, (size 9223372036854775808).Makes n ∧ n.toInt < 0 := by
  have hz : (present (size 9223372036854775807) : Host String).whole? =
      some 9223372036854775807 := rfl
  have hw : (size 9223372036854775808 : Host String).whole? = some 9223372036854775808 := rfl
  obtain ⟨m, n, hm, hn, -, hkept, -, heq, -⟩ := whole_number_laws _ _ hz hw
  obtain ⟨n', -, hn', -, -, -, hneg, -⟩ := whole_number_laws _ _ hw hz
  refine ⟨hz, hw, ⟨m, n, hm, hn, hkept.2 (by norm_num), ?_⟩, n', hn', hneg.2 (.inr (by norm_num))⟩
  rw [Bool.eq_false_iff, Ne, heq]
  norm_num

/-- The largest size and -1 of 32 bits are one value. -/
theorem size_equals_negative :
    (size 18446744073709551615 : Host String).whole? = some 18446744073709551615 ∧
    (int32 (-1) : Host String).whole? = some (-1) ∧
    (size 18446744073709551615).Makes (-1) ∧ (int32 (-1)).Makes (-1) ∧
    (-1 : Int64).toInt = -1 ∧
    (Session.initial.run 1 [.make (.host (.size 18446744073709551615)) (some "a") false,
      .make (.host (.int32 (-1))) (some "b") false,
      .observe (.equal (.register "a") (.register "b"))]).1 =
      [⟨.made (.int (-1)), 0⟩, ⟨.made (.int (-1)), 0⟩, ⟨.equal true, 0⟩] := by
  exact ⟨rfl, rfl, fun _ _ _ => rfl, fun _ _ _ => rfl, rfl, rfl⟩

end Host

end ObjectModel
