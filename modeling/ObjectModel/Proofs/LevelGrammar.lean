import Mathlib
import ObjectModel.Proofs.Starting

/-!
Which texts write a level: between blanks, a name in any ASCII case or a number behind at most one
plus sign, with any number of leading zeros. Main statement: `Settings.level_grammar`.
-/

namespace ObjectModel

namespace Text

variable {c d : Char} {cs ds core before after : List Char}

/-! ### Blanks around a text -/

/-- The text is `core` with blanks around it. -/
inductive Padded (core : List Char) : List Char → Prop where
  | intro {before after : List Char} (hb : ∀ c ∈ before, isBlank c) (ha : ∀ c ∈ after, isBlank c) :
      Padded core (before ++ core ++ after)

lemma dropWhile_append_blank (core : List Char) (ha : ∀ c ∈ after, isBlank c) :
    ∃ rest, (∀ c ∈ rest, isBlank c) ∧
      (core ++ after).dropWhile isBlank = core.dropWhile isBlank ++ rest := by
  rw [List.dropWhile_append]
  split
  · next h =>
    refine ⟨[], by simp, ?_⟩
    rw [List.isEmpty_iff.1 h, List.dropWhile_eq_nil_iff.2 ha]
    rfl
  · exact ⟨after, ha, rfl⟩

lemma dropWhile_blank_append (hb : ∀ c ∈ before, isBlank c) (core : List Char) :
    (before ++ core).dropWhile isBlank = core.dropWhile isBlank := by
  rw [List.dropWhile_append, List.dropWhile_eq_nil_iff.2 hb]
  rfl

lemma Padded.trim_eq (h : Padded core cs) : trim cs = trim core := by
  obtain ⟨hb, ha⟩ := h
  obtain ⟨rest, hr, hd⟩ := dropWhile_append_blank core ha
  unfold trim
  rw [List.append_assoc, dropWhile_blank_append hb, hd, List.reverse_append,
    dropWhile_blank_append (by simpa using hr)]

lemma padded_trim (cs : List Char) : Padded (trim cs) cs := by
  have hl := List.takeWhile_append_dropWhile (p := isBlank) (l := cs)
  have hr := List.takeWhile_append_dropWhile (p := isBlank) (l := (cs.dropWhile isBlank).reverse)
  have h : cs = cs.takeWhile isBlank ++ trim cs ++
      ((cs.dropWhile isBlank).reverse.takeWhile isBlank).reverse := by
    rw [List.append_assoc, trim, ← List.reverse_append, hr, List.reverse_reverse, hl]
  have ht : Padded (trim cs) (cs.takeWhile isBlank ++ trim cs ++
      ((cs.dropWhile isBlank).reverse.takeWhile isBlank).reverse) :=
    .intro (fun c hc => List.mem_takeWhile_imp hc)
      fun c hc => List.mem_takeWhile_imp (List.mem_reverse.1 hc)
  rwa [← h] at ht

lemma dropWhile_eq_self (h : ∀ c ∈ cs, ¬ isBlank c) : cs.dropWhile isBlank = cs := by
  cases cs with
  | nil => rfl
  | cons c cs => exact List.dropWhile_cons_of_neg (h c List.mem_cons_self)

lemma trim_eq_self (h : ∀ c ∈ cs, ¬ isBlank c) : trim cs = cs := by
  rw [trim, dropWhile_eq_self h, dropWhile_eq_self (by simpa using h), List.reverse_reverse]

/-! ### Letters in either case -/

lemma toNat_toLower (c : Char) :
    c.toLower.toNat = if 65 ≤ c.toNat ∧ c.toNat ≤ 90 then c.toNat + 32 else c.toNat := by
  unfold Char.toLower
  split
  · next h =>
    have hc : 65 ≤ c.toNat ∧ c.toNat ≤ 90 := by simpa [UInt32.le_iff_toNat_le] using h
    have hv : ('a'.val - 'A'.val).toNat = 32 := by decide
    rw [if_pos hc, ← Char.toNat_val, UInt32.toNat_add, Char.toNat_val, hv]
    omega
  · next h => rw [if_neg (by simpa [UInt32.le_iff_toNat_le] using h)]

lemma toNat_toUpper (c : Char) :
    c.toUpper.toNat = if 97 ≤ c.toNat ∧ c.toNat ≤ 122 then c.toNat - 32 else c.toNat := by
  unfold Char.toUpper
  split
  · next h =>
    have hc : 97 ≤ c.toNat ∧ c.toNat ≤ 122 := by simpa [UInt32.le_iff_toNat_le] using h
    have hv : ('A'.val - 'a'.val).toNat = 2 ^ 32 - 32 := by decide
    rw [if_pos hc, ← Char.toNat_val, UInt32.toNat_add, Char.toNat_val, hv]
    omega
  · next h => rw [if_neg (by simpa [UInt32.le_iff_toNat_le] using h)]

lemma toUpper_eq_iff : c.toUpper = d.toUpper ↔ c.toLower = d.toLower := by
  rw [← Char.toNat_inj, ← Char.toNat_inj, toNat_toUpper, toNat_toUpper, toNat_toLower,
    toNat_toLower]
  split_ifs <;> omega

/-- What is no letter has no other case. -/
lemma eq_of_toLower_eq (h : c.toLower = d.toLower) (hd : d.toNat < 65 ∨ 122 < d.toNat) : c = d := by
  rw [← Char.toNat_inj, toNat_toLower, toNat_toLower] at h
  rw [← Char.toNat_inj]
  split_ifs at h <;> omega

/-- The texts are the same but for the case of ASCII letters. -/
def SameLetters (cs ds : List Char) : Prop := cs.map Char.toLower = ds.map Char.toLower

lemma sameLetters_iff : SameLetters cs ds ↔ cs.map Char.toUpper = ds.map Char.toUpper := by
  unfold SameLetters
  induction cs generalizing ds with
  | nil => cases ds <;> simp
  | cons c cs ih =>
    cases ds with
    | nil => simp
    | cons d ds => rw [List.map_cons, List.map_cons, List.map_cons, List.map_cons,
        List.cons.injEq, List.cons.injEq, ih, toUpper_eq_iff]

lemma SameLetters.eq (h : SameLetters cs ds) (hd : ∀ d ∈ ds, d.toNat < 65 ∨ 122 < d.toNat) :
    cs = ds := by
  unfold SameLetters at h
  induction ds generalizing cs with
  | nil => simpa using h
  | cons d ds ih =>
    obtain ⟨c, cs, rfl, hc, hcs⟩ := List.map_eq_cons_iff.1 h
    rw [eq_of_toLower_eq hc (hd d List.mem_cons_self),
      ih hcs fun d' hd' => hd d' (List.mem_cons_of_mem _ hd')]

lemma lt_or_lt_of_isBlank (h : isBlank c) : c.toNat < 65 ∨ 122 < c.toNat := by
  simp only [isBlank, Bool.or_eq_true, Bool.and_eq_true, decide_eq_true_eq, beq_iff_eq] at h
  omega

lemma Padded.of_sameLetters (h : Padded core cs) (hd : SameLetters ds cs) :
    ∃ core', SameLetters core' core ∧ Padded core' ds := by
  obtain @⟨before, after, hb, ha⟩ := h
  unfold SameLetters at hd
  rw [List.map_append, List.map_append] at hd
  obtain ⟨bc, a, rfl, hbc, hsa⟩ := List.map_eq_append_iff.1 hd
  obtain ⟨b, core', rfl, hsb, hsc⟩ := List.map_eq_append_iff.1 hbc
  rw [SameLetters.eq hsb fun d h => lt_or_lt_of_isBlank (hb d h),
    SameLetters.eq hsa fun d h => lt_or_lt_of_isBlank (ha d h)]
  exact ⟨core', hsc, .intro hb ha⟩

/-! ### Numbers without a sign -/

variable {n bound : Nat}

/-- The text is digits of the number, the first being the highest, behind at most one plus sign. -/
inductive Unsigned (n : Nat) : List Char → Prop where
  | intro {plus digits : List Char} (hp : plus = [] ∨ plus = ['+']) (hne : digits ≠ [])
      (hd : ∀ c ∈ digits, c.isDigit) (hn : Nat.ofDigits 10 (digits.reverse.map digitValue) = n) :
      Unsigned n (plus ++ digits)

lemma decimalValue_eq (ds : List Char) :
    decimalValue ds = Nat.ofDigits 10 (ds.reverse.map digitValue) := by
  rw [Nat.ofDigits_eq_foldr, List.foldr_map, decimalValue, List.foldl_eq_foldr_reverse]
  simp only [Nat.cast_id, Nat.add_comm]

lemma readNat?_eq_some : readNat? ds = some n ↔
    ds ≠ [] ∧ (∀ c ∈ ds, c.isDigit) ∧ Nat.ofDigits 10 (ds.reverse.map digitValue) = n := by
  unfold readNat?
  rw [decimalValue_eq]
  split
  · next h =>
    rw [Option.some.injEq]
    exact ⟨fun hn => ⟨h.1, List.all_eq_true.1 h.2, hn⟩, fun hn => hn.2.2⟩
  · next h => exact ⟨nofun, fun hn => absurd ⟨hn.1, List.all_eq_true.2 hn.2.1⟩ h⟩

/-- The text behind the plus sign, if it starts with one. -/
def dropPlus : List Char → List Char
  | '+' :: cs => cs
  | cs => cs

lemma readUnsigned?_eq (cs : List Char) : readUnsigned? cs = readNat? (dropPlus cs) := by
  unfold readUnsigned?
  split
  · rfl
  · next h => rw [dropPlus.eq_2 _ h]

lemma exists_plus (cs : List Char) :
    ∃ plus, (plus = [] ∨ plus = ['+']) ∧ cs = plus ++ dropPlus cs := by
  unfold dropPlus
  split
  · exact ⟨['+'], .inr rfl, rfl⟩
  · exact ⟨[], .inl rfl, rfl⟩

lemma dropPlus_plus {plus : List Char} (hp : plus = [] ∨ plus = ['+'])
    (hd : ∀ c ∈ ds, c.isDigit) : dropPlus (plus ++ ds) = ds := by
  rcases hp with rfl | rfl
  · unfold dropPlus
    split
    · next h =>
      have hd' : ('+' : Char).isDigit := hd '+' (by rw [← List.nil_append ds, h]; simp)
      cases hd'
    · rfl
  · rfl

lemma readUnsigned?_eq_some : readUnsigned? cs = some n ↔ Unsigned n cs := by
  rw [readUnsigned?_eq, readNat?_eq_some]
  constructor
  · rintro ⟨hne, hd, hn⟩
    obtain ⟨plus, hp, hcs⟩ := exists_plus cs
    rw [hcs]
    exact .intro hp hne hd hn
  · rintro ⟨hp, hne, hd, hn⟩
    rw [dropPlus_plus hp hd]
    exact ⟨hne, hd, hn⟩

lemma Unsigned.range (h : Unsigned n cs) : ∀ c ∈ cs, 32 < c.toNat ∧ c.toNat < 65 := by
  obtain ⟨hp, -, hd, -⟩ := h
  intro c hc
  rcases List.mem_append.1 hc with hc | hc
  · rcases hp with rfl | rfl
    · cases hc
    · rw [List.mem_singleton.1 hc]
      decide
  · obtain ⟨h0, h9⟩ := Char.isDigit_iff_toNat.1 (hd c hc)
    change 48 ≤ c.toNat at h0
    change c.toNat ≤ 57 at h9
    omega

lemma Unsigned.ne_nil (h : Unsigned n cs) : cs ≠ [] := by
  obtain ⟨-, hne, -, -⟩ := h
  exact List.append_ne_nil_of_right_ne_nil _ hne

/-- The number that digits write, if it and all on the way to it are below the bound. -/
def valueBelow? (bound : Nat) (digits : List Char) : Option Nat :=
  digits.foldlM (fun n c =>
    let m := 10 * n + digitValue c
    if m < bound then some m else none) 0

/-- A number without a sign, refused as soon as it reaches the bound. -/
def readBelow? (bound : Nat) (cs : List Char) : Option Nat :=
  if dropPlus cs ≠ [] ∧ (dropPlus cs).all Char.isDigit then valueBelow? bound (dropPlus cs)
  else none

lemma le_foldl_digits (ds : List Char) (n : Nat) :
    n ≤ ds.foldl (fun n c => 10 * n + digitValue c) n := by
  induction ds generalizing n with
  | nil => exact le_rfl
  | cons d ds ih =>
    have hd : n ≤ 10 * n + digitValue d := by omega
    exact hd.trans (ih _)

/-- The numbers on the way only grow, so that the last one decides. -/
lemma valueBelow?_eq (hb : 0 < bound) (ds : List Char) :
    valueBelow? bound ds = if decimalValue ds < bound then some (decimalValue ds) else none := by
  unfold valueBelow? decimalValue
  generalize (0 : Nat) = n at hb
  induction ds generalizing n with
  | nil => simp [hb]
  | cons d ds ih =>
    rw [List.foldlM_cons, List.foldl_cons]
    by_cases h : 10 * n + digitValue d < bound
    · simp only [if_pos h, Option.bind_eq_bind, Option.bind_some]
      exact ih _ h
    · have hl := le_foldl_digits ds (10 * n + digitValue d)
      simp only [if_neg h, Option.bind_eq_bind, Option.bind_none]
      rw [if_neg (by omega)]

lemma readBelow?_eq (hb : 0 < bound) (cs : List Char) :
    readBelow? bound cs = (readUnsigned? cs).filter (· < bound) := by
  rw [readUnsigned?_eq, readBelow?, readNat?]
  split
  · rw [valueBelow?_eq hb, Option.filter_some]
    simp only [decide_eq_true_eq]
  · rfl

end Text

namespace Level

variable {l : Level} {n bound : Nat} {cs : List Char} {s t : String}

open Text (Padded SameLetters Unsigned trim)

/-- The ways to write a level. -/
inductive Writes (l : Level) (cs : List Char) : Prop where
  | name (h : SameLetters cs l.name.toList)
  | number (h : Unsigned l.verbosity cs)

/-- The text is the level with blanks around it. -/
def Spells (l : Level) (s : String) : Prop := ∃ core, l.Writes core ∧ Padded core s.toList

lemma ofName?_eq_some : ofName? cs = some l ↔ SameLetters cs l.name.toList := by
  have hl : l.name.toList.map Char.toUpper = l.name.toList := by cases l <;> decide
  rw [Text.sameLetters_iff, hl]
  constructor
  · intro h
    have hb := List.find?_some h
    exact (beq_iff_eq.1 hb).symm
  · intro h
    rw [ofName?, h]
    cases l <;> decide

lemma ofVerbosity?_eq_some : ofVerbosity? n = some l ↔ l.verbosity = n := by
  constructor
  · intro h
    have hb := List.find?_some h
    exact beq_iff_eq.1 hb
  · rintro rfl
    exact ofVerbosity?_verbosity l

lemma range_of_sameLetters (h : SameLetters cs l.name.toList) :
    ∀ c ∈ cs, 65 ≤ c.toNat ∧ c.toNat ≤ 122 := by
  intro c hc
  have hl : (l.name.toList.map Char.toLower).all Char.isLower := by cases l <;> rfl
  have hd := List.all_eq_true.1 hl _ (h ▸ List.mem_map_of_mem hc)
  have hr : 97 ≤ c.toLower.toNat ∧ c.toLower.toNat ≤ 122 := by
    simpa [Char.isLower, UInt32.le_iff_toNat_le] using hd
  rw [Text.toNat_toLower] at hr
  split_ifs at hr <;> omega

lemma not_sameLetters (h : Unsigned n cs) : ¬ SameLetters cs l.name.toList := by
  intro hs
  obtain ⟨c, hc⟩ := List.exists_mem_of_ne_nil _ h.ne_nil
  have hu := h.range c hc
  have hl := range_of_sameLetters hs c hc
  omega

lemma Writes.not_isBlank (h : l.Writes cs) : ∀ c ∈ cs, ¬ Text.isBlank c := by
  intro c hc hb
  simp only [Text.isBlank, Bool.or_eq_true, Bool.and_eq_true, decide_eq_true_eq, beq_iff_eq] at hb
  cases h with
  | name h =>
    have hr := range_of_sameLetters h c hc
    omega
  | number h =>
    have hr := h.range c hc
    omega

lemma ofText?_eq_some : ofText? s = some l ↔ l.Writes (trim s.toList) := by
  unfold ofText?
  cases hn : Text.readUnsigned? (trim s.toList) with
  | some n =>
    have hu := Text.readUnsigned?_eq_some.1 hn
    simp only [hn, ofVerbosity?_eq_some]
    refine ⟨fun h => .number (h ▸ hu), fun h => ?_⟩
    cases h with
    | name h => exact absurd h (not_sameLetters hu)
    | number h => exact Option.some.inj ((Text.readUnsigned?_eq_some.2 h).symm.trans hn)
  | none =>
    simp only [hn, ofName?_eq_some]
    refine ⟨.name, fun h => ?_⟩
    cases h with
    | name h => exact h
    | number h => cases (Text.readUnsigned?_eq_some.2 h).symm.trans hn

lemma spells_iff : l.Spells s ↔ l.Writes (trim s.toList) := by
  constructor
  · rintro ⟨core, hw, hp⟩
    rwa [hp.trim_eq, Text.trim_eq_self hw.not_isBlank]
  · exact fun h => ⟨_, h, Text.padded_trim _⟩

lemma Writes.of_sameLetters (h : l.Writes cs) {ds : List Char} (hd : SameLetters ds cs) :
    l.Writes ds := by
  cases h with
  | name h => exact .name (hd.trans h)
  | number h =>
    rw [hd.eq fun d hm => .inl (h.range d hm).2]
    exact .number h

/-- The second text is the first with blanks around it or with letters in another case. -/
inductive Rewrites (s t : String) : Prop where
  | blanks (h : Padded s.toList t.toList)
  | letters (h : SameLetters s.toList t.toList)

lemma Spells.of_sameLetters (h : l.Spells s) (ht : SameLetters t.toList s.toList) : l.Spells t := by
  obtain ⟨core, hw, hp⟩ := h
  obtain ⟨core', hc, hp'⟩ := hp.of_sameLetters ht
  exact ⟨core', hw.of_sameLetters hc, hp'⟩

lemma Rewrites.spells_iff (h : Rewrites s t) : l.Spells t ↔ l.Spells s := by
  cases h with
  | blanks h => rw [Level.spells_iff, Level.spells_iff, h.trim_eq]
  | letters h => exact ⟨fun ht => ht.of_sameLetters h, fun hs => hs.of_sameLetters h.symm⟩

/-- The level that a text gives where a number is refused as soon as it reaches the bound. -/
def ofTextBelow? (bound : Nat) (s : String) : Option Level :=
  let cs := trim s.toList
  ((Text.readBelow? bound cs).bind ofVerbosity?).or (ofName? cs)

/-- Digits that come to a bound above all levels give none, in whatever way they are refused. -/
lemma ofTextBelow?_eq (hb : 5 < bound) (s : String) : ofTextBelow? bound s = ofText? s := by
  unfold ofTextBelow? ofText?
  simp only [Text.readBelow?_eq (by omega : 0 < bound)]
  cases hn : Text.readUnsigned? (trim s.toList) with
  | none => rfl
  | some n =>
    have hname : ofName? (trim s.toList) = none := by
      refine Option.eq_none_iff_forall_ne_some.2 fun l h => ?_
      exact not_sameLetters (Text.readUnsigned?_eq_some.1 hn) (ofName?_eq_some.1 h)
    rw [hname, Option.or_none, Option.filter_some]
    by_cases h : n < bound
    · simp [h]
    · have hv : ofVerbosity? n = none := by
        refine Option.eq_none_iff_forall_ne_some.2 fun l h => ?_
        have hl := ofVerbosity?_eq_some.1 h
        cases l <;> simp only [verbosity] at hl <;> omega
      simp [h, hv]

end Level

namespace Settings

variable {s : Settings} {l : Level}

lemma level_eq_ok : s.level = .ok l ↔ l.Spells s.logLevel := by
  rw [Level.spells_iff, ← Level.ofText?_eq_some, level]
  split
  · next l' h => rw [h, Except.ok.injEq, Option.some.injEq]
  · next h => rw [h]; exact ⟨nofun, nofun⟩

lemma level_eq_error {e : SettingsError} :
    s.level = .error e ↔ (∀ l : Level, ¬ l.Spells s.logLevel) ∧ e = .invalidLevel s.logLevel := by
  constructor
  · intro h
    refine ⟨fun l hl => ?_, eq_of_level_error h⟩
    cases h.symm.trans (level_eq_ok.2 hl)
  · rintro ⟨h, rfl⟩
    cases hl : s.level with
    | ok l => exact absurd (level_eq_ok.1 hl) (h l)
    | error e => rw [eq_of_level_error hl]

/-- **The grammar of levels.** The level is the one that the text spells, and a text that spells
none is refused as it stands. Blanks around it and the case of its letters never matter. Numbers of
any length count: one that reads them step by step below a bound finds the same level. -/
theorem level_grammar (s : Settings) :
    (∀ l, s.level = .ok l ↔ l.Spells s.logLevel) ∧
    (∀ e, s.level = .error e ↔
      (∀ l : Level, ¬ l.Spells s.logLevel) ∧ e = .invalidLevel s.logLevel) ∧
    (∀ t, Level.Rewrites s.logLevel t →
      ∀ l, { s with logLevel := t }.level = .ok l ↔ s.level = .ok l) ∧
    ∀ bound > 5, ∀ l, s.level = .ok l ↔ Level.ofTextBelow? bound s.logLevel = some l := by
  refine ⟨fun l => level_eq_ok, fun e => level_eq_error, fun t h l => ?_, fun bound hb l => ?_⟩
  · rw [level_eq_ok, level_eq_ok]
    exact h.spells_iff
  · rw [level_eq_ok, Level.ofTextBelow?_eq hb, Level.ofText?_eq_some, Level.spells_iff]

example : ({ standard with logLevel := " +00000000000000000000000003\n" }).level = .ok .info := by
  decide

example : ({ standard with logLevel := "18446744073709551619" }).level =
    .error (.invalidLevel "18446744073709551619") := by decide

end Settings

end ObjectModel
