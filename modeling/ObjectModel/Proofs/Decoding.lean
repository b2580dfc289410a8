import Mathlib
import ObjectModel.Proofs.DistinctKeys
import ObjectModel.Proofs.RoundTrip.Settings

/-!
Settings as the reference for their decoding. A document gives each field from its place, by name or
by position, and nothing else in it counts; a decoder that goes through the entries once finds the
same settings, because no key stands twice. Main statement: `Settings.decoding_laws`.
-/

namespace ObjectModel.Settings

open Entries (get?)
open Toml (document?)

variable {α : Type} {v : Toml.Value} {ms ms' : List (String × Toml.Value)} {s : Settings}
  {key : String} {read : Toml.Value → Option α}

/-! ### The reference -/

/-- A field has the value that is written in its place, or the standard one where that is empty. -/
inductive Field (write : α → Toml.Value) (standard : α) : Option Toml.Value → α → Prop where
  | missing : Field write standard none standard
  | given (a : α) : Field write standard (some (write a)) a

def writeNames (names : List String) : Toml.Value := .array (names.map .string)

/-- What stands in the places of the three fields. -/
structure Places where
  logLevel : Option Toml.Value
  logAnsi : Option Toml.Value
  preloadKeywords : Option Toml.Value

namespace Places

def empty : Places := ⟨none, none, none⟩

def ofMembers (ms : List (String × Toml.Value)) : Places :=
  ⟨get? "log_level" ms, get? "log_ansi" ms, get? "preload_keywords" ms⟩

def ofItems (items : List Toml.Value) : Places := ⟨items[0]?, items[1]?, items[2]?⟩

/-- The places in the entry `runtime`, by its form. Where it is absent or a date they are empty, and
no other scalar has any. -/
inductive In : Option Toml.Value → Places → Prop where
  | absent : In none empty
  | table (ms : List (String × Toml.Value)) : In (some (.table ms)) (ofMembers ms)
  | array (items : List Toml.Value) : In (some (.array items)) (ofItems items)
  | dateTime (d : Toml.DateTime) : In (some (.dateTime d)) empty

/-- The settings that the places give. -/
structure Give (p : Places) (s : Settings) : Prop where
  logLevel : Field .string standard.logLevel p.logLevel s.logLevel
  logAnsi : Field .boolean standard.logAnsi p.logAnsi s.logAnsi
  preloadKeywords : Field writeNames standard.preloadKeywords p.preloadKeywords s.preloadKeywords

end Places

/-- A document with these members gives the settings. -/
def Given (ms : List (String × Toml.Value)) (s : Settings) : Prop :=
  ∃ p : Places, p.In (get? "runtime" ms) ∧ p.Give s

/-! ### One pass over the entries -/

def text? : Toml.Value → Option String
  | .string s => some s
  | _ => none

def flag? : Toml.Value → Option Bool
  | .boolean b => some b
  | _ => none

def names? : Toml.Value → Option (List String)
  | .array items => items.mapM text?
  | _ => none

/-- What an entry does to the slot of a key: under another key nothing, and under this one it fills
the slot, unless it is filled already. -/
def fill (key : String) (read : Toml.Value → Option α) (slot : Option α)
    (e : String × Toml.Value) : Option (Option α) :=
  if e.1 = key then if slot.isSome then none else (read e.2).map some
  else some slot

/-- The element that is next, if any is left. -/
def pop? (read : Toml.Value → Option α) :
    List Toml.Value → Option (Option α × List Toml.Value)
  | [] => some (none, [])
  | v :: vs => (read v).map fun a => (some a, vs)

/-- What has been read of the settings. -/
structure Slots where
  logLevel : Option String
  logAnsi : Option Bool
  preloadKeywords : Option (List String)

namespace Slots

def empty : Slots := ⟨none, none, none⟩

def settings (slots : Slots) : Settings :=
  ⟨slots.logLevel.getD standard.logLevel, slots.logAnsi.getD standard.logAnsi,
    slots.preloadKeywords.getD standard.preloadKeywords⟩

/-- An entry of the table. -/
def take (slots : Slots) (e : String × Toml.Value) : Option Slots := do
  return ⟨← fill "log_level" text? slots.logLevel e, ← fill "log_ansi" flag? slots.logAnsi e,
    ← fill "preload_keywords" names? slots.preloadKeywords e⟩

/-- The elements of the array, as far as they are wanted. -/
def ofItems? (items : List Toml.Value) : Option Slots := do
  let (logLevel, items) ← pop? text? items
  let (logAnsi, items) ← pop? flag? items
  let (preloadKeywords, _) ← pop? names? items
  return ⟨logLevel, logAnsi, preloadKeywords⟩

end Slots

def decodeValue? : Toml.Value → Option Settings
  | .table ms => (ms.foldlM Slots.take .empty).map Slots.settings
  | .array items => (Slots.ofItems? items).map Slots.settings
  | .dateTime _ => some Slots.empty.settings
  | _ => none

/-- The settings in a document, each of whose entries is looked at once and in order. -/
def decode? (ms : List (String × Toml.Value)) : Option Settings :=
  (ms.foldlM (fill "runtime" decodeValue?) none).map (·.getD standard)

/-! ### Reading a place -/

/-- The reader takes exactly what is written. -/
def Inverts (read : Toml.Value → Option α) (write : α → Toml.Value) : Prop :=
  ∀ ⦃v a⦄, read v = some a ↔ v = write a

lemma inverts_text? : Inverts text? .string := by
  intro v a
  cases v <;> simp [text?]

lemma inverts_flag? : Inverts flag? .boolean := by
  intro v a
  cases v <;> simp [flag?]

lemma mapM_text? {items : List Toml.Value} {names : List String} :
    items.mapM text? = some names ↔ items = names.map .string := by
  induction items generalizing names with
  | nil => cases names <;> simp
  | cons v items ih =>
    rw [List.mapM_cons]
    constructor
    · intro h
      obtain ⟨name, hv, h⟩ := Option.bind_eq_some_iff.1 h
      obtain ⟨names, hn, h⟩ := Option.bind_eq_some_iff.1 h
      cases h
      rw [List.map_cons, inverts_text?.1 hv, ih.1 hn]
    · intro h
      obtain ⟨name, names, rfl, rfl, rfl⟩ := List.map_eq_cons_iff.1 h.symm
      rw [inverts_text?.2 rfl, ih.2 rfl]
      rfl

lemma inverts_names? : Inverts names? writeNames := by
  intro v a
  unfold names? writeNames
  split
  · rw [mapM_text?, Toml.Value.array.injEq]
  · next h => exact ⟨nofun, fun hv => absurd hv (h _)⟩

lemma texts?_eq (items : List Toml.Value) : texts? items = items.mapM text? := by
  fun_induction texts? items with
  | case1 => rfl
  | case2 s rest ih =>
    rw [ih, List.mapM_cons, text?]
    exact Option.map_eq_bind
  | case3 v rest h =>
    have hv : text? v = none := by
      unfold text?
      split
      · exact absurd rfl (h _)
      · rfl
    simp [hv]

lemma field_iff {write : α → Toml.Value} (h : Inverts read write) {standard a : α}
    {o : Option Toml.Value} :
    (o.mapM read).map (·.getD standard) = some a ↔ Field write standard o a := by
  cases o with
  | none =>
    refine ⟨fun ha => ?_, fun ha => ?_⟩
    · cases ha
      exact .missing
    · cases ha
      rfl
  | some v =>
    refine ⟨fun ha => ?_, fun ha => ?_⟩
    · obtain ⟨slot, hs, rfl⟩ := Option.map_eq_some_iff.1 ha
      rw [Option.mapM_some] at hs
      obtain ⟨b, hb, rfl⟩ := Option.map_eq_some_iff.1 hs
      rw [h.1 hb]
      exact .given b
    · obtain - | - := ha
      have hr : read (write a) = some a := h.2 rfl
      simp [hr]

/-! ### Field by field -/

lemma textOr_eq (standard : String) (o : Option Toml.Value) :
    textOr standard o = (o.mapM text?).map (·.getD standard) := by
  cases o with
  | none => rfl
  | some v => cases v <;> rfl

lemma flagOr_eq (standard : Bool) (o : Option Toml.Value) :
    flagOr standard o = (o.mapM flag?).map (·.getD standard) := by
  cases o with
  | none => rfl
  | some v => cases v <;> rfl

lemma textsOr_eq (standard : List String) (o : Option Toml.Value) :
    textsOr standard o = (o.mapM names?).map (·.getD standard) := by
  cases o with
  | none => rfl
  | some v =>
    cases v with
    | array items =>
      simp only [textsOr, texts?_eq, Option.mapM_some, names?]
      cases items.mapM text? <;> rfl
    | _ => rfl

lemma ofFields?_eq_some {l a n : Option Toml.Value} :
    ofFields? l a n = some s ↔ (⟨l, a, n⟩ : Places).Give s := by
  unfold ofFields?
  constructor
  · intro h
    obtain ⟨level, hl, h⟩ := Option.bind_eq_some_iff.1 h
    obtain ⟨ansi, ha, h⟩ := Option.bind_eq_some_iff.1 h
    obtain ⟨names, hn, h⟩ := Option.bind_eq_some_iff.1 h
    cases h
    rw [textOr_eq] at hl
    rw [flagOr_eq] at ha
    rw [textsOr_eq] at hn
    exact ⟨(field_iff inverts_text?).1 hl, (field_iff inverts_flag?).1 ha,
      (field_iff inverts_names?).1 hn⟩
  · rintro ⟨hl, ha, hn⟩
    rw [textOr_eq, (field_iff inverts_text?).2 hl, flagOr_eq, (field_iff inverts_flag?).2 ha,
      textsOr_eq, (field_iff inverts_names?).2 hn]
    rfl

lemma give_empty : Places.empty.Give s ↔ s = standard := by
  constructor
  · obtain ⟨level, ansi, names⟩ := s
    rintro ⟨hl, ha, hn⟩
    cases hl
    cases ha
    cases hn
    rfl
  · rintro rfl
    exact ⟨.missing, .missing, .missing⟩

lemma ofEntry?_eq_some :
    ofEntry? v = some s ↔ ∃ p : Places, p.In (some v) ∧ p.Give s := by
  constructor
  · intro h
    cases v with
    | table ms => exact ⟨_, .table ms, ofFields?_eq_some.1 h⟩
    | array items => exact ⟨_, .array items, ofFields?_eq_some.1 h⟩
    | dateTime d => exact ⟨_, .dateTime d, give_empty.2 (Option.some.inj h).symm⟩
    | _ => cases h
  · rintro ⟨p, hp, hg⟩
    cases hp with
    | table ms => exact ofFields?_eq_some.2 hg
    | array items => exact ofFields?_eq_some.2 hg
    | dateTime d => rw [give_empty.1 hg, ofEntry?]

lemma ofMembers?_eq_some : ofMembers? ms = some s ↔ Given ms s := by
  unfold ofMembers? Given
  split
  · next h =>
    rw [h, Option.some.injEq]
    refine ⟨fun hs => ⟨_, .absent, give_empty.2 hs.symm⟩, ?_⟩
    rintro ⟨p, hp, hg⟩
    cases hp
    exact (give_empty.1 hg).symm
  · next v h => rw [h, ofEntry?_eq_some]

/-! ### One pass finds the same -/

lemma foldlM_fill_of_notMem (h : key ∉ Entries.keys ms) (slot : Option α) :
    ms.foldlM (fill key read) slot = some slot := by
  induction ms with
  | nil => rfl
  | cons e ms ih =>
    obtain ⟨hk, hks⟩ := not_or.1 (mt List.mem_cons.2 h)
    rw [List.foldlM_cons, fill, if_neg (Ne.symm hk)]
    exact ih hks

/-- Under keys that differ, the slot is filled from the one entry that there is for it. -/
lemma foldlM_fill (hd : Entries.Distinct ms) :
    ms.foldlM (fill key read) none = (get? key ms).mapM read := by
  induction ms with
  | nil => rfl
  | cons e ms ih =>
    obtain ⟨k, v⟩ := e
    obtain ⟨hk, hd⟩ := List.nodup_cons.1 hd
    rw [List.foldlM_cons, get?, fill]
    by_cases h : k = key
    · subst h
      rw [if_pos rfl, if_pos rfl]
      cases hv : read v with
      | none => simp [hv]
      | some a => simp [hv, foldlM_fill_of_notMem hk]
    · rw [if_neg h, if_neg h]
      exact ih hd

lemma pop?_eq (items : List Toml.Value) :
    pop? read items = (items[0]?.mapM read).map fun slot => (slot, items.tail) := by
  cases items with
  | nil => rfl
  | cons v items => simp [pop?]; cases read v <;> rfl

namespace Slots

/-- The slots that are filled from the places. -/
def ofPlaces? (p : Places) : Option Slots := do
  return ⟨← p.logLevel.mapM text?, ← p.logAnsi.mapM flag?, ← p.preloadKeywords.mapM names?⟩

lemma map_settings_ofPlaces? (p : Places) :
    (ofPlaces? p).map settings = ofFields? p.logLevel p.logAnsi p.preloadKeywords := by
  unfold ofPlaces? ofFields?
  rw [textOr_eq, flagOr_eq, textsOr_eq]
  cases p.logLevel.mapM text? <;> cases p.logAnsi.mapM flag? <;>
    cases p.preloadKeywords.mapM names? <;> rfl

/-- Going through the entries fills each slot by itself. -/
lemma foldlM_take (slots : Slots) : ms.foldlM take slots = do
    return ⟨← ms.foldlM (fill "log_level" text?) slots.logLevel,
      ← ms.foldlM (fill "log_ansi" flag?) slots.logAnsi,
      ← ms.foldlM (fill "preload_keywords" names?) slots.preloadKeywords⟩ := by
  induction ms generalizing slots with
  | nil => rfl
  | cons e ms ih =>
    simp only [List.foldlM_cons, take]
    cases fill "log_level" text? slots.logLevel e <;>
      cases fill "log_ansi" flag? slots.logAnsi e <;>
      cases fill "preload_keywords" names? slots.preloadKeywords e <;> simp [ih]

lemma foldlM_take_empty (hd : Entries.Distinct ms) :
    ms.foldlM take empty = ofPlaces? (.ofMembers ms) := by
  rw [foldlM_take, empty, foldlM_fill hd, foldlM_fill hd, foldlM_fill hd]
  rfl

lemma ofItems?_eq (items : List Toml.Value) : ofItems? items = ofPlaces? (.ofItems items) := by
  unfold ofItems? ofPlaces? Places.ofItems
  simp only [pop?_eq]
  cases items[0]?.mapM text? with
  | none => rfl
  | some level =>
    simp only [Option.map_some, Option.bind_eq_bind, Option.bind_some, List.getElem?_tail]
    cases items[1]?.mapM flag? with
    | none => rfl
    | some ansi =>
      simp only [Option.map_some, Option.bind_some, List.getElem?_tail]
      cases items[2]?.mapM names? <;> rfl

end Slots

lemma decodeValue?_eq (h : v.Unambiguous) : decodeValue? v = ofEntry? v := by
  cases h with
  | table hd => rw [decodeValue?, Slots.foldlM_take_empty hd, Slots.map_settings_ofPlaces?]; rfl
  | array => rw [decodeValue?, Slots.ofItems?_eq, Slots.map_settings_ofPlaces?]; rfl
  | _ => rfl

lemma decode?_eq (h : (Toml.Value.table ms).Unambiguous) : decode? ms = ofMembers? ms := by
  obtain - | - | - | - | - | - | ⟨hd, hv⟩ := h
  unfold decode? ofMembers?
  rw [foldlM_fill hd]
  split
  · next hg => rw [hg]; rfl
  · next v hg =>
    rw [hg, Option.mapM_some, decodeValue?_eq (hv _ (Entries.mem_of_get? hg))]
    cases ofEntry? v <;> rfl

/-! ### What does not count -/

/-- The entries give the fields alike: they are the same, they are tables or arrays that differ in
what is no field, or one gives by name what the other gives by position. -/
inductive SameFields : Option Toml.Value → Option Toml.Value → Prop where
  | refl (o : Option Toml.Value) : SameFields o o
  | tables {ms ms' : List (String × Toml.Value)}
      (h : ∀ k ∈ ["log_level", "log_ansi", "preload_keywords"], get? k ms = get? k ms') :
      SameFields (some (.table ms)) (some (.table ms'))
  | arrays {items items' : List Toml.Value} (h : items.take 3 = items'.take 3) :
      SameFields (some (.array items)) (some (.array items'))
  | forms {ms : List (String × Toml.Value)} {items : List Toml.Value}
      (hl : get? "log_level" ms = items[0]?) (ha : get? "log_ansi" ms = items[1]?)
      (hn : get? "preload_keywords" ms = items[2]?) :
      SameFields (some (.table ms)) (some (.array items))

lemma Places.in_table {p : Places} : p.In (some (.table ms)) ↔ p = .ofMembers ms := by
  refine ⟨fun h => ?_, fun h => h ▸ .table ms⟩
  cases h
  rfl

lemma Places.in_array {p : Places} {items : List Toml.Value} :
    p.In (some (.array items)) ↔ p = .ofItems items := by
  refine ⟨fun h => ?_, fun h => h ▸ .array items⟩
  cases h
  rfl

lemma getElem?_eq_of_take {items items' : List Toml.Value} {i n : Nat} (hi : i < n)
    (h : items.take n = items'.take n) : items[i]? = items'[i]? := by
  rw [← List.getElem?_take_of_lt hi, h, List.getElem?_take_of_lt hi]

lemma SameFields.in_iff {o o' : Option Toml.Value} (h : SameFields o o') (p : Places) :
    p.In o ↔ p.In o' := by
  cases h with
  | refl => exact Iff.rfl
  | @tables ms ms' h =>
    have he : Places.ofMembers ms = .ofMembers ms' := by
      rw [Places.ofMembers, h _ (by simp), h _ (by simp), h _ (by simp)]
      rfl
    rw [Places.in_table, Places.in_table, he]
  | @arrays items items' h =>
    have he : Places.ofItems items = .ofItems items' := by
      rw [Places.ofItems, getElem?_eq_of_take (by omega) h, getElem?_eq_of_take (by omega) h,
        getElem?_eq_of_take (by omega) h]
      rfl
    rw [Places.in_array, Places.in_array, he]
  | @forms ms items hl ha hn =>
    have he : Places.ofMembers ms = .ofItems items := by
      rw [Places.ofMembers, hl, ha, hn]
      rfl
    rw [Places.in_table, Places.in_array, he]

lemma SameFields.ofMembers?_eq (h : SameFields (get? "runtime" ms) (get? "runtime" ms')) :
    ofMembers? ms = ofMembers? ms' := by
  refine Option.ext fun s => ?_
  rw [ofMembers?_eq_some, ofMembers?_eq_some, Given, Given]
  simp only [h.in_iff]

/-! ### Documents -/

/-- What a valid document with these members reads as. -/
structure Decoded (text : String) (ms : List (String × Toml.Value)) : Prop where
  /-- Going through the entries once finds the settings that the places give, and no others. -/
  decode?_eq_some_iff : ∀ s, decode? ms = some s ↔ Given ms s
  /-- They are refused for their level only. -/
  ofToml_eq : ∀ s, Given ms s → ofToml text = match s.level with
    | .ok _ => .ok s
    | .error _ => .error (.invalidLevel s.logLevel)
  /-- The document itself is refused if they are not given, some value being of a wrong type. -/
  malformed_iff : ofToml text = .error .malformed ↔ ∀ s, ¬ Given ms s

lemma ofToml_of_none {text : String} (h : (document? text).bind ofMembers? = none) :
    ofToml text = .error .malformed := by
  unfold ofToml
  rw [h]

lemma decoded_of_document {text : String} (h : document? text = some ms) : Decoded text ms := by
  have hb : (document? text).bind ofMembers? = ofMembers? ms := by rw [h, Option.bind_some]
  have he (s : Settings) (hg : Given ms s) := ofToml_eq (hb.trans (ofMembers?_eq_some.2 hg))
  refine ⟨fun s => ?_, he, fun hm s hg => ?_, fun hn => ofToml_of_none ?_⟩
  · rw [decode?_eq (Toml.unambiguous_document h), ofMembers?_eq_some]
  · have hs := (he s hg).symm.trans hm
    cases hl : s.level <;> rw [hl] at hs <;> cases hs
  · rw [hb]
    exact Option.eq_none_iff_forall_ne_some.2 fun s hs => hn s (ofMembers?_eq_some.1 hs)

/-- **Decoding.** From a valid document come the settings that the places of its fields give, also
by one pass over the entries, and nothing does exactly if one of the values has a wrong type.
Documents that give the fields alike, by name or by position, with the same or other entries
besides, are answered alike. -/
theorem decoding_laws :
    (∀ text ms, document? text = some ms → Decoded text ms) ∧
    ∀ text text' ms ms', document? text = some ms → document? text' = some ms' →
      SameFields (get? "runtime" ms) (get? "runtime" ms') → ofToml text = ofToml text' := by
  refine ⟨fun text ms => decoded_of_document, fun text text' ms ms' h h' hs => ?_⟩
  unfold ofToml
  rw [h, h', Option.bind_some, Option.bind_some, hs.ofMembers?_eq]

/-- One document in both forms. -/
theorem decoding_laws_of_two_forms :
    let text := "[runtime]\nlog_level = \"debug\"\nlog_ansi = true\npreload_keywords = [\"a\"]\n"
    let text' := "runtime = [\"debug\", true, [\"a\"]]\n"
    let names : Toml.Value := .array [.string "a"]
    let ms : List (String × Toml.Value) := [("runtime", .table [("log_level", .string "debug"),
      ("log_ansi", .boolean true), ("preload_keywords", names)])]
    let ms' : List (String × Toml.Value) :=
      [("runtime", .array [.string "debug", .boolean true, names])]
    document? text = some ms ∧ document? text' = some ms' ∧ Decoded text ms ∧ Decoded text' ms' ∧
      ofToml text = .ok ⟨"debug", true, ["a"]⟩ ∧ ofToml text = ofToml text' := by
  intro text text' names ms ms'
  let s : Settings := ⟨"debug", true, ["a"]⟩
  have ht : text = s.tableText := by decide
  have ha : text' = s.arrayText := by decide
  have hm : document? text = some ms := by
    rw [ht]
    exact (isTable_tableText s).document?_eq
  have hm' : document? text' = some ms' := by
    rw [ha]
    exact (isArray_arrayText s).document?_eq
  have hl : Level.ofText? "debug" = some .debug := by decide
  have hlevel : s.level = .ok .debug := by simp only [level, s, hl]
  have hg : Given ms s := ⟨_, .table _, .given "debug", .given true, .given ["a"]⟩
  obtain ⟨hd, hs⟩ := decoding_laws
  refine ⟨hm, hm', hd _ _ hm, hd _ _ hm', ?_, hs _ _ _ _ hm hm' (.forms rfl rfl rfl)⟩
  rw [(hd _ _ hm).ofToml_eq s hg, hlevel]

end ObjectModel.Settings
