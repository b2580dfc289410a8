import Mathlib
import ObjectModel.Proofs.RoundTrip.Toml
import ObjectModel.Proofs.Starting
import ObjectModel.Settings.Document
import ObjectModel.Settings.Writer

/-!
Settings written to either document are read back, in whatever way their strings are spelled. Main
statement: `Settings.ofToml_written`.
-/

namespace ObjectModel.Settings

open List (Forall₂)
open Toml

/-! ### Either document -/

/-- The text gives the settings by name, each string in quotes and spelled in some way. -/
inductive IsTable (s : Settings) : String → Prop where
  | intro {level : String} {names : List String} (hl : Quotes level s.logLevel)
      (hn : Forall₂ Quotes names s.preloadKeywords) :
      IsTable s ("[runtime]\nlog_level = " ++ level ++ "\nlog_ansi = " ++ writeBool s.logAnsi ++
        "\npreload_keywords = " ++ ("[" ++ Text.joined names ++ "]") ++ "\n")

/-- The text gives them by position. -/
inductive IsArray (s : Settings) : String → Prop where
  | intro {level : String} {names : List String} (hl : Quotes level s.logLevel)
      (hn : Forall₂ Quotes names s.preloadKeywords) :
      IsArray s ("runtime = [" ++ level ++ ", " ++ writeBool s.logAnsi ++ ", " ++
        ("[" ++ Text.joined names ++ "]") ++ "]\n")

lemma quotes_map_writeString (ss : List String) : Forall₂ Quotes (ss.map writeString) ss := by
  rw [List.forall₂_map_left_iff, List.forall₂_same]
  exact fun s _ => quotes_writeString s

lemma isTable_tableText (s : Settings) : s.IsTable s.tableText :=
  .intro (quotes_writeString _) (quotes_map_writeString _)

lemma isArray_arrayText (s : Settings) : s.IsArray s.arrayText :=
  .intro (quotes_writeString _) (quotes_map_writeString _)

/-! ### Values -/

lemma texts?_map (ss : List String) : texts? (ss.map .string) = some ss := by
  induction ss with
  | nil => rfl
  | cons s ss ih => simp [texts?, ih]

/-- The three values that write the settings, by position. -/
def values (s : Settings) : List Toml.Value :=
  [.string s.logLevel, .boolean s.logAnsi, .array (s.preloadKeywords.map .string)]

lemma ofFields?_values (s : Settings) :
    ofFields? s.values[0]? s.values[1]? s.values[2]? = some s := by
  simp [values, ofFields?, textOr, flagOr, textsOr, texts?_map]

/-! ### The names -/

lemma bare_runtime : Bare "runtime" := by simp [Bare, isBareChar]

lemma bare_log_level : Bare "log_level" := by simp [Bare, isBareChar]

lemma bare_log_ansi : Bare "log_ansi" := by simp [Bare, isBareChar]

lemma bare_preload_keywords : Bare "preload_keywords" := by simp [Bare, isBareChar]

/-! ### The table -/

def tableStatements (s : Settings) : List Statement :=
  [.table ⟨[], "runtime"⟩, .pair ⟨[], "log_level"⟩ (.string s.logLevel),
    .pair ⟨[], "log_ansi"⟩ (.boolean s.logAnsi),
    .pair ⟨[], "preload_keywords"⟩ (.array (s.preloadKeywords.map .string))]

lemma IsTable.statements?_eq {s : Settings} {text : String} (h : s.IsTable text) :
    statements? text.toList = some s.tableStatements := by
  obtain @⟨level, names, hl, hn⟩ := h
  have ht : ("[runtime]\nlog_level = " ++ level ++ "\nlog_ansi = " ++ writeBool s.logAnsi ++
      "\npreload_keywords = " ++ ("[" ++ Text.joined names ++ "]") ++ "\n").toList =
      '[' :: ("runtime".toList ++ ']' :: '\n' ::
        ("log_level".toList ++ ' ' :: '=' :: ' ' :: (level.toList ++ '\n' ::
        ("log_ansi".toList ++ ' ' :: '=' :: ' ' :: ((writeBool s.logAnsi).toList ++ '\n' ::
        ("preload_keywords".toList ++ ' ' :: '=' :: ' ' ::
          (("[" ++ Text.joined names ++ "]").toList ++ '\n' :: []))))))) := by simp
  have hend : statements? [] = some [] := by rw [statements?]
  rw [ht]
  exact statements?_header bare_runtime <|
    statements?_pair bare_log_level (written_string _ hl) <|
    statements?_pair bare_log_ansi (written_bool _ _) <|
    statements?_pair bare_preload_keywords (written_strings _ hn) hend

lemma run_tableStatements (s : Settings) :
    (Assembly.start.run s.tableStatements).map (finishMembers ·.root) =
      some [("runtime", .table [("log_level", .string s.logLevel), ("log_ansi", .boolean s.logAnsi),
        ("preload_keywords", .array (s.preloadKeywords.map .string))])] := by
  simp [Assembly.run, Assembly.start, tableStatements, Assembly.step, Members.update,
    Members.openTable, Members.add, Key.parts, Entries.get?, Entries.insert, Entries.contains,
    finishMembers, Item.toValue]

/-! ### The array -/

def arrayStatements (s : Settings) : List Statement := [.pair ⟨[], "runtime"⟩ (.array s.values)]

lemma IsArray.statements?_eq {s : Settings} {text : String} (h : s.IsArray text) :
    statements? text.toList = some s.arrayStatements := by
  obtain @⟨level, names, hl, hn⟩ := h
  have hw : Written (value? (nestingLimit - 1)) ("[" ++ Text.joined [level, writeBool s.logAnsi,
      "[" ++ Text.joined names ++ "]"] ++ "]") (.array s.values) :=
    written_array (.cons (written_string _ hl) (.cons (written_bool _ _)
      (.cons (written_strings _ hn) .nil)))
  have ht : ("runtime = [" ++ level ++ ", " ++ writeBool s.logAnsi ++ ", " ++
      ("[" ++ Text.joined names ++ "]") ++ "]\n").toList = "runtime".toList ++ ' ' :: '=' :: ' ' ::
        (("[" ++ Text.joined [level, writeBool s.logAnsi, "[" ++ Text.joined names ++ "]"] ++
          "]").toList ++ '\n' :: []) := by simp
  have hend : statements? [] = some [] := by rw [statements?]
  rw [ht]
  exact statements?_pair bare_runtime hw hend

lemma run_arrayStatements (s : Settings) :
    (Assembly.start.run s.arrayStatements).map (finishMembers ·.root) =
      some [("runtime", .array s.values)] := by
  simp [Assembly.run, Assembly.start, arrayStatements, Assembly.step, Members.update,
    Members.add, Entries.insert, Entries.contains, finishMembers, Item.toValue]

/-! ### Reading back -/

lemma document?_of_run {text : String} {ss : List Statement} {ms : List (String × Toml.Value)}
    (hm : skipMark text.toList = text.toList) (hs : statements? text.toList = some ss)
    (hr : (Assembly.start.run ss).map (finishMembers ·.root) = some ms) :
    document? text = some ms := by
  obtain ⟨a, ha, hms⟩ := Option.map_eq_some_iff.1 hr
  rw [document?, hm, hs]
  simp only [Option.bind_eq_bind, Option.bind_some, ha, ← hms]
  rfl

lemma IsTable.document?_eq {s : Settings} {text : String} (h : s.IsTable text) :
    document? text = some [("runtime", .table [("log_level", .string s.logLevel),
      ("log_ansi", .boolean s.logAnsi),
      ("preload_keywords", .array (s.preloadKeywords.map .string))])] := by
  have hm : skipMark text.toList = text.toList := by
    obtain ⟨hl, hn⟩ := h
    simp [skipMark]
  exact document?_of_run hm h.statements?_eq (run_tableStatements s)

lemma IsArray.document?_eq {s : Settings} {text : String} (h : s.IsArray text) :
    document? text = some [("runtime", .array s.values)] := by
  have hm : skipMark text.toList = text.toList := by
    obtain ⟨hl, hn⟩ := h
    simp [skipMark]
  exact document?_of_run hm h.statements?_eq (run_arrayStatements s)

lemma IsTable.ofMembers?_eq {s : Settings} {text : String} (h : s.IsTable text) :
    (document? text).bind ofMembers? = some s := by
  rw [h.document?_eq, Option.bind_some]
  simpa [ofMembers?, Entries.get?, ofEntry?, values] using ofFields?_values s

lemma IsArray.ofMembers?_eq {s : Settings} {text : String} (h : s.IsArray text) :
    (document? text).bind ofMembers? = some s := by
  rw [h.document?_eq, Option.bind_some]
  simpa [ofMembers?, Entries.get?, ofEntry?] using ofFields?_values s

/-- A document that gives settings is refused for their level only. -/
lemma ofToml_eq {text : String} {s : Settings} (h : (document? text).bind ofMembers? = some s) :
    ofToml text = match s.level with
      | .ok _ => .ok s
      | .error _ => .error (.invalidLevel s.logLevel) := by
  unfold ofToml
  rw [h]
  cases hl : s.level with
  | ok level => simp only [hl]
  | error e => simp only [hl, eq_of_level_error hl]

/-- **Written settings read back**: from a table and from an array alike every field is what it was,
character for character, unless the level is none; then it is refused as it was written. -/
theorem ofToml_written {s : Settings} {table array : String} (ht : s.IsTable table)
    (ha : s.IsArray array) :
    (ofToml table = match s.level with
      | .ok _ => .ok s
      | .error _ => .error (.invalidLevel s.logLevel)) ∧
    ofToml array = ofToml table := by
  have h := ofToml_eq ht.ofMembers?_eq
  exact ⟨h, (ofToml_eq ha.ofMembers?_eq).trans h.symm⟩

/-- Keywords with a byte order mark in front, with nothing in them and with a quote. -/
theorem ofToml_written_quote :
    let s : Settings := ⟨" DEBUG\n", true, ["\ufeffa#\n", "", "\"\\"]⟩
    ofToml s.tableText = .ok s ∧ ofToml s.arrayText = .ok s := by
  intro s
  have hl : Level.ofText? " DEBUG\n" = some .debug := by decide
  have hs : s.level = .ok .debug := by simp only [level, s, hl]
  obtain ⟨ht, ha⟩ := ofToml_written (isTable_tableText s) (isArray_arrayText s)
  rw [hs] at ht
  exact ⟨ht, ha.trans ht⟩

end ObjectModel.Settings
