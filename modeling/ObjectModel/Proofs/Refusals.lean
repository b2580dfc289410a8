import Mathlib
import ObjectModel.Proofs.Decoding
import ObjectModel.Proofs.LevelGrammar
import ObjectModel.Proofs.Remainder
import ObjectModel.Proofs.Starting

/-!
What the answer to the text of a document says. A fault of the document itself, wherever it stands,
comes before a level that is none, and the settings that are given always start a process. Main
statement: `Settings.answer_laws`.
-/

namespace ObjectModel.Settings

open Entries (get?)
open Toml (document?)

variable {α : Type} {ms : List (String × Toml.Value)} {s : Settings} {p : Places} {text : String}

/-! ### Faults -/

/-- Something has a wrong type: the entry itself, or the value in one of its places. -/
inductive Mistyped (ms : List (String × Toml.Value)) : Prop where
  | entry (h : ∀ p : Places, ¬ p.In (get? "runtime" ms))
  | logLevel {p : Places} {v : Toml.Value} (h : p.In (get? "runtime" ms))
      (hv : p.logLevel = some v) (hn : ∀ s, v ≠ .string s)
  | logAnsi {p : Places} {v : Toml.Value} (h : p.In (get? "runtime" ms))
      (hv : p.logAnsi = some v) (hn : ∀ b, v ≠ .boolean b)
  | preloadKeywords {p : Places} {v : Toml.Value} (h : p.In (get? "runtime" ms))
      (hv : p.preloadKeywords = some v) (hn : ∀ names, v ≠ writeNames names)

/-- The fault is in the document itself, whatever the level. -/
inductive Faulty (text : String) : Prop where
  | malformed (h : Toml.Malformed text)
  | mistyped {ms : List (String × Toml.Value)} (h : document? text = some ms) (hm : Mistyped ms)

/-- All of the document can be read, and these are the settings in it. -/
def Gives (text : String) (s : Settings) : Prop := ∃ ms, document? text = some ms ∧ Given ms s

lemma Places.In.unique {q : Places} {o : Option Toml.Value} (hp : p.In o) (hq : q.In o) :
    p = q := by
  cases hp <;> cases hq <;> rfl

lemma Field.eq_write {write : α → Toml.Value} {standard a : α} {o : Option Toml.Value}
    {v : Toml.Value} (h : Field write standard o a) (hv : o = some v) : v = write a := by
  cases hv
  cases h
  rfl

/-- A place can be read, or it holds what nothing is written as. -/
lemma field_or_mistyped (write : α → Toml.Value) (standard : α) (o : Option Toml.Value) :
    (∃ a, Field write standard o a) ∨ ∃ v, o = some v ∧ ∀ a, v ≠ write a := by
  cases o with
  | none => exact .inl ⟨standard, .missing⟩
  | some v =>
    by_cases h : ∃ a, v = write a
    · obtain ⟨a, rfl⟩ := h
      exact .inl ⟨a, .given a⟩
    · exact .inr ⟨v, rfl, not_exists.1 h⟩

lemma Mistyped.not_given (h : Mistyped ms) : ¬ Given ms s := by
  rintro ⟨q, hq, hg⟩
  cases h with
  | entry h => exact h q hq
  | logLevel h hv hn => exact hn _ (hg.logLevel.eq_write (hq.unique h ▸ hv))
  | logAnsi h hv hn => exact hn _ (hg.logAnsi.eq_write (hq.unique h ▸ hv))
  | preloadKeywords h hv hn => exact hn _ (hg.preloadKeywords.eq_write (hq.unique h ▸ hv))

lemma given_or_mistyped (ms : List (String × Toml.Value)) : (∃ s, Given ms s) ∨ Mistyped ms := by
  by_cases hp : ∃ p : Places, p.In (get? "runtime" ms)
  · obtain ⟨p, hp⟩ := hp
    obtain ⟨level, hl⟩ | ⟨v, hv, hn⟩ := field_or_mistyped .string standard.logLevel p.logLevel
    · obtain ⟨ansi, ha⟩ | ⟨v, hv, hn⟩ := field_or_mistyped .boolean standard.logAnsi p.logAnsi
      · obtain ⟨names, hk⟩ | ⟨v, hv, hn⟩ :=
          field_or_mistyped writeNames standard.preloadKeywords p.preloadKeywords
        · exact .inl ⟨⟨level, ansi, names⟩, p, hp, hl, ha, hk⟩
        · exact .inr (.preloadKeywords hp hv hn)
      · exact .inr (.logAnsi hp hv hn)
    · exact .inr (.logLevel hp hv hn)
  · exact .inr (.entry (not_exists.1 hp))

lemma Gives.not_faulty (h : Gives text s) : ¬ Faulty text := by
  obtain ⟨ms, hd, hg⟩ := h
  rintro (hm | ⟨hd', hm⟩)
  · cases (Toml.document?_eq_none.2 hm).symm.trans hd
  · cases hd.symm.trans hd'
    exact hm.not_given hg

lemma gives_or_faulty (text : String) : (∃ s, Gives text s) ∨ Faulty text := by
  cases hd : document? text with
  | none => exact .inr (.malformed (Toml.document?_eq_none.1 hd))
  | some ms =>
    obtain ⟨s, hs⟩ | hm := given_or_mistyped ms
    · exact .inl ⟨s, ms, hd, hs⟩
    · exact .inr (.mistyped hd hm)

/-! ### Answers -/

lemma bind_ofMembers?_eq_some : (document? text).bind ofMembers? = some s ↔ Gives text s := by
  rw [Option.bind_eq_some_iff]
  simp only [ofMembers?_eq_some, Gives]

lemma Gives.ofToml_eq (h : Gives text s) : ofToml text = match s.level with
    | .ok _ => .ok s
    | .error _ => .error (.invalidLevel s.logLevel) :=
  Settings.ofToml_eq (bind_ofMembers?_eq_some.2 h)

lemma Faulty.ofToml_eq (h : Faulty text) : ofToml text = .error .malformed :=
  ofToml_of_none (Option.eq_none_iff_forall_ne_some.2 fun _ hs =>
    (bind_ofMembers?_eq_some.1 hs).not_faulty h)

lemma ofToml_eq_ok : ofToml text = .ok s ↔ Gives text s ∧ ∃ level, s.level = .ok level := by
  constructor
  · intro h
    obtain ⟨s', hs⟩ | hf := gives_or_faulty text
    · rw [hs.ofToml_eq] at h
      split at h
      · next level hl =>
        cases h
        exact ⟨hs, level, hl⟩
      · cases h
    · cases hf.ofToml_eq.symm.trans h
  · rintro ⟨hs, level, hl⟩
    rw [hs.ofToml_eq, hl]

/-- The entry `runtime` has the text in the place of the level, as it is. -/
def WritesLevel (text value : String) : Prop :=
  ∃ ms, ∃ p : Places, document? text = some ms ∧ p.In (get? "runtime" ms) ∧
    p.logLevel = some (.string value)

/-- The standard level is one, so a level that is none is written in the document. -/
lemma Gives.writesLevel (h : Gives text s) (hn : ∀ l : Level, ¬ l.Spells s.logLevel) :
    WritesLevel text s.logLevel := by
  obtain ⟨ms, hd, p, hp, hl, -, -⟩ := h
  refine ⟨ms, p, hd, hp, ?_⟩
  have hw : Level.warn.Spells standard.logLevel := level_eq_ok.1 rfl
  -- Generalized, since a missing field equates two values that are not variables.
  generalize p.logLevel = o, s.logLevel = value at hl hn
  cases hl with
  | missing => exact absurd hw (hn .warn)
  | given a => rfl

lemma ofToml_eq_invalidLevel {value : String} : ofToml text = .error (.invalidLevel value) ↔
    ∃ s, Gives text s ∧ s.logLevel = value ∧ ∀ l : Level, ¬ l.Spells value := by
  constructor
  · intro h
    obtain ⟨s, hs⟩ | hf := gives_or_faulty text
    · rw [hs.ofToml_eq] at h
      split at h
      · cases h
      · next e he =>
        cases h
        exact ⟨s, hs, rfl, (level_eq_error.1 he).1⟩
    · cases hf.ofToml_eq.symm.trans h
  · rintro ⟨s, hs, rfl, hn⟩
    rw [hs.ofToml_eq, level_eq_error.2 ⟨hn, rfl⟩]

lemma ofToml_eq_malformed : ofToml text = .error .malformed ↔ Faulty text := by
  refine ⟨fun h => ?_, Faulty.ofToml_eq⟩
  obtain ⟨s, hs⟩ | hf := gives_or_faulty text
  · rw [hs.ofToml_eq] at h
    split at h <;> cases h
  · exact hf

/-! ### Starts -/

/-- A start of the process and the level check come out alike. -/
inductive StartsAsChecked (s : Settings) (p : Process) : Prop where
  | started {level : Level} {ks : List Keyword} {q : Process} (hl : s.level = .ok level)
      (hs : s.start p = .ok ks q) (h : s.Started level p ks q)
  | refused {e : SettingsError} (hl : s.level = .error e) (hs : s.start p = .error e p)

lemma startsAsChecked (s : Settings) (p : Process) : s.StartsAsChecked p := by
  cases hl : s.level with
  | ok level =>
    obtain ⟨ks, q, hs, h, -⟩ := started_of_level hl p
    exact .started hl hs h
  | error e => exact .refused hl (start_of_error hl p)

/-- **Answers.** From a text come the settings that are in it, if they have a level, and these start
every process; a level that is none is refused, as it is written, only where all the rest can be
read; and a fault in the document itself comes first, wherever it stands. No settings at all start a
process otherwise than their level check says. -/
theorem answer_laws (text : String) :
    (∀ s, ofToml text = .ok s ↔ Gives text s ∧ ∃ level, s.level = .ok level) ∧
    (∀ s, ofToml text = .ok s → ∃ level, s.level = .ok level ∧
      ∀ p, ∃ ks q, s.start p = .ok ks q ∧ s.Started level p ks q) ∧
    (∀ value, ofToml text = .error (.invalidLevel value) ↔
      ∃ s, Gives text s ∧ s.logLevel = value ∧ ∀ l : Level, ¬ l.Spells value) ∧
    (∀ value, ofToml text = .error (.invalidLevel value) → WritesLevel text value) ∧
    (ofToml text = .error .malformed ↔ Faulty text) ∧
    ∀ s p, StartsAsChecked s p := by
  refine ⟨fun s => ofToml_eq_ok, fun s h => ?_, fun value => ofToml_eq_invalidLevel,
    fun value h => ?_, ofToml_eq_malformed, startsAsChecked⟩
  · obtain ⟨-, level, hl⟩ := ofToml_eq_ok.1 h
    refine ⟨level, hl, fun p => ?_⟩
    obtain ⟨ks, q, hs, hst, -⟩ := started_of_level hl p
    exact ⟨ks, q, hs, hst⟩
  · obtain ⟨s, hs, rfl, hn⟩ := ofToml_eq_invalidLevel.1 h
    exact hs.writesLevel hn

end ObjectModel.Settings
