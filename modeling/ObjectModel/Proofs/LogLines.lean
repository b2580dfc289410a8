import Mathlib
import ObjectModel.Proofs.Delimited
import ObjectModel.Proofs.Verbosity

/-!
The lines of a log. An event is written as one line, unless it is the lookup of a member whose name
has newlines in it: keywords are quoted in the log, and members are not. Main statement:
`Script.Session.log_lines`.
-/

namespace ObjectModel

/-- How many newlines there are in a text. -/
def newlines (s : String) : ℕ := s.toList.count '\n'

lemma newlines_append (s t : String) : newlines (s ++ t) = newlines s + newlines t := by
  rw [newlines, String.toList_append, List.count_append]
  rfl

lemma newlines_ofList (cs : List Char) : newlines (String.ofList cs) = cs.count '\n' := by
  rw [newlines, String.toList_ofList]

namespace Event

/-- How often the text of the event goes on in another line. -/
def breaks : Event → ℕ
  | nilLookup (.name s) => newlines s
  | _ => 0

lemma count_escape (cs : List Char) : (Text.escape cs).count '\n' = 0 :=
  List.count_eq_zero.2 (Text.newline_notMem_escape cs)

lemma count_writeNat (n : ℕ) : (Text.writeNat n).count '\n' = 0 :=
  List.count_eq_zero.2 (Text.notMem_toDigits (by decide) (by decide) n)

lemma newlines_capability (c : Capability) : newlines c.text = 0 := by cases c <;> rfl

/-- The breaks of an event are those in the texts of its fields. -/
lemma sum_newlines_fields (e : Event) : (e.fields.map fun f => newlines f.2).sum = e.breaks := by
  cases e with
  | interned name => simp [fields, breaks, newlines, count_escape]
  | nilLookup key =>
    cases key with
    | name s => rfl
    | capability c => exact newlines_capability c
  | subscriberKept => rfl
  | initialized n m => simp [fields, breaks, newlines_ofList, count_writeNat]

lemma newlines_name (e : Event) : ∀ f ∈ e.fields, newlines f.1 = 0 := by
  have hn : newlines "keyword" = 0 ∧ newlines "member" = 0 ∧ newlines "preloaded" = 0 ∧
      newlines "registered" = 0 := ⟨rfl, rfl, rfl, rfl⟩
  cases e <;> simp [fields, hn]

lemma newlines_plainFields (fs : List (String × String)) (h : ∀ f ∈ fs, newlines f.1 = 0) :
    newlines (plainFields fs) = (fs.map fun f => newlines f.2).sum := by
  induction fs with
  | nil => rfl
  | cons f fs ih =>
    obtain ⟨hn, hs⟩ := List.forall_mem_cons.1 h
    have hb : newlines " " = 0 ∧ newlines "=" = 0 := ⟨rfl, rfl⟩
    simp only [plainFields, newlines_append, hb, hn, ih hs, List.map_cons, List.sum_cons]
    omega

lemma newlines_styled (style text : String) :
    newlines (styled style text) = newlines style + newlines text := by
  have hb : newlines "\x1b[" = 0 ∧ newlines "m" = 0 ∧ newlines "\x1b[0m" = 0 := ⟨rfl, rfl, rfl⟩
  simp only [styled, newlines_append, hb]
  omega

lemma newlines_styledFields (fs : List (String × String)) (h : ∀ f ∈ fs, newlines f.1 = 0) :
    newlines (styledFields fs) = (fs.map fun f => newlines f.2).sum := by
  induction fs with
  | nil => rfl
  | cons f fs ih =>
    obtain ⟨hn, hs⟩ := List.forall_mem_cons.1 h
    have hb : newlines " " = 0 ∧ newlines "=" = 0 ∧ newlines "3" = 0 ∧ newlines "2" = 0 :=
      ⟨rfl, rfl, rfl, rfl⟩
    simp only [styledFields, newlines_append, newlines_styled, hb, hn, ih hs, List.map_cons,
      List.sum_cons]
    omega

lemma newlines_column (l : Level) : newlines l.column = 0 := by cases l <;> decide

lemma newlines_colour (l : Level) : newlines l.colour = 0 := by cases l <;> decide

lemma newlines_target (e : Event) : newlines e.target = 0 := by
  cases e <;> simp only [target] <;> rfl

lemma newlines_message (e : Event) : newlines e.message = 0 := by
  cases e <;> simp only [message] <;> rfl

lemma newlines_plainLine (e : Event) : newlines e.plainLine = e.breaks + 1 := by
  have hb : newlines timestamp = 0 ∧ newlines " " = 0 ∧ newlines ": " = 0 ∧ newlines "\n" = 1 := by
    decide
  simp only [plainLine, newlines_append, hb, newlines_column, newlines_target, newlines_message,
    newlines_plainFields _ e.newlines_name, e.sum_newlines_fields, Nat.zero_add]

lemma newlines_styledLine (e : Event) : newlines e.styledLine = e.breaks + 1 := by
  have hb : newlines timestamp = 0 ∧ newlines " " = 0 ∧ newlines ":" = 0 ∧ newlines "2" = 0 ∧
      newlines "\n" = 1 := by
    decide
  simp only [styledLine, newlines_append, newlines_styled, hb, newlines_column, newlines_colour,
    newlines_target, newlines_message, newlines_styledFields _ e.newlines_name,
    e.sum_newlines_fields, Nat.zero_add]

lemma newlines_line (ansi : Bool) (e : Event) : newlines (e.line ansi) = e.breaks + 1 := by
  cases ansi with
  | false => exact e.newlines_plainLine
  | true => exact e.newlines_styledLine

/-- What is written of the event before the newline at its end. -/
def body (ansi : Bool) (e : Event) : List Char := (e.line ansi).toList.dropLast

lemma toList_line (ansi : Bool) (e : Event) : (e.line ansi).toList = e.body ansi ++ ['\n'] := by
  obtain ⟨s, hs⟩ : ∃ s, e.line ansi = s ++ "\n" := by
    cases ansi
    · exact ⟨_, rfl⟩
    · exact ⟨_, rfl⟩
  have hl : (e.line ansi).toList = s.toList ++ ['\n'] := hs ▸ String.toList_append
  rw [body, hl, List.dropLast_concat]

lemma count_body (ansi : Bool) (e : Event) : (e.body ansi).count '\n' = e.breaks := by
  have h := e.newlines_line ansi
  rwa [newlines, toList_line, List.count_append, List.count_singleton_self,
    Nat.add_right_cancel_iff] at h

lemma breaks_eq_zero {e : Event} :
    e.breaks = 0 ↔ ∀ s, e = .nilLookup (.name s) → '\n' ∉ s.toList := by
  unfold breaks
  split
  · next s =>
    rw [newlines, List.count_eq_zero]
    refine ⟨?_, fun h => h s rfl⟩
    rintro h t ⟨⟩
    exact h
  · next h => exact ⟨fun _ s hs => absurd hs (h s), fun _ => rfl⟩

end Event

/-- The text is so many lines, each with a newline at its end and no other one. -/
def IsLines (n : Nat) (cs : List Char) : Prop :=
  ∃ ls : List (List Char), ls.length = n ∧ (∀ l ∈ ls, '\n' ∉ l) ∧ cs = ls.flatMap (· ++ ['\n'])

lemma count_lines (ls : List (List Char)) :
    (ls.flatMap (· ++ ['\n'])).count '\n' = ls.length + (ls.map (·.count '\n')).sum := by
  induction ls with
  | nil => rfl
  | cons l ls ih =>
    simp only [List.flatMap_cons, List.count_append, ih, List.length_cons, List.map_cons,
      List.sum_cons, List.count_cons_self, List.count_nil]
    omega

lemma IsLines.count_eq {n : Nat} {cs : List Char} (h : IsLines n cs) : cs.count '\n' = n := by
  obtain ⟨ls, rfl, hn, rfl⟩ := h
  have hs : (ls.map (·.count '\n')).sum = 0 := by
    refine List.sum_eq_zero_iff.2 fun k hk => ?_
    obtain ⟨l, hl, rfl⟩ := List.mem_map.1 hk
    exact List.count_eq_zero.2 (hn l hl)
  rw [count_lines, hs, Nat.add_zero]

namespace Process

/-- The lines of a log are those of the events that are written, in their order. -/
lemma toList_logText (p : Process) : ∃ ansi, p.logText.toList =
    (p.written.map (Event.body ansi)).flatMap (· ++ ['\n']) := by
  unfold logText
  split
  · next h =>
    rw [written_of_none h]
    exact ⟨false, rfl⟩
  · next b h =>
    refine ⟨b.ansi, ?_⟩
    rw [String.toList_join, List.flatMap_map, List.flatMap_map]
    simp only [Event.toList_line]

lemma newlines_logText (p : Process) :
    newlines p.logText = p.written.length + (p.written.map Event.breaks).sum := by
  obtain ⟨ansi, h⟩ := p.toList_logText
  rw [newlines, h, count_lines, List.length_map, List.map_map]
  simp only [Function.comp_def, Event.count_body]

lemma isLines_logText (p : Process) : IsLines p.written.length p.logText.toList ↔
    ∀ s, .nilLookup (.name s) ∈ p.written → '\n' ∉ s.toList := by
  constructor
  · intro h s hs
    have hc : newlines p.logText = p.written.length := h.count_eq
    rw [newlines_logText, Nat.add_eq_left, List.sum_eq_zero_iff] at hc
    exact Event.breaks_eq_zero.1 (hc _ (List.mem_map_of_mem hs)) s rfl
  · intro h
    obtain ⟨ansi, hl⟩ := p.toList_logText
    refine ⟨_, List.length_map .., fun l hm => ?_, hl⟩
    obtain ⟨e, he, rfl⟩ := List.mem_map.1 hm
    refine List.count_eq_zero.1 ((e.count_body ansi).trans (Event.breaks_eq_zero.2 ?_))
    rintro s rfl
    exact h s he

end Process

namespace Script.Session

/-- **Lines of a log.** In the log of a run there is a newline for each event that is written, and
one for each newline in the name of a member that nil was asked for. So it has one line for each
event exactly if no such name has a newline in it, whatever the names of the keywords are and
whatever the settings. -/
theorem log_lines (depth : Nat) (cs : List Command) :
    let p := (initial.run depth cs).2.process
    newlines p.logText = p.written.length + (p.written.map Event.breaks).sum ∧
    (IsLines p.written.length p.logText.toList ↔
      ∀ s, .nilLookup (.name s) ∈ p.written → '\n' ∉ s.toList) :=
  ⟨Process.newlines_logText _, Process.isLines_logText _⟩

/-- Starts a process that writes down what nil is asked for. -/
def startDebug : Command := .observe (.start (.settings ⟨"debug", false, []⟩))

def askNil (name : String) : Command := .make (.member .nil (.name name)) none false

lemma firstStart?_startDebug (cs : List Command) :
    firstStart? (startDebug :: cs) = some (⟨"debug", false, []⟩, .debug) := by
  have hs : startDebug.starting? = some (⟨"debug", false, []⟩, .debug) := by decide
  rw [firstStart?, List.findSome?_cons, hs]

lemma logText_startDebug (cs : List Command) :
    (initial.run 1 (startDebug :: cs)).2.process.logText = String.join
      ((initial.run 1 (startDebug :: cs)).2.process.written.map (Event.line false)) :=
  logText_run 1 (firstStart?_startDebug cs)

/-- A name that makes three lines of one, two of which tell of a start that never was. -/
theorem log_lines_forged :
    let name := "x\n<time> DEBUG quill_runtime: log subscriber already installed, keeping it\n" ++
      "<time>  INFO quill_runtime: quill runtime initialized preloaded=0 registered=0"
    let forging := (initial.run 1 [startDebug, askNil name]).2.process
    let honest := (initial.run 1 [startDebug, askNil "x", startDebug]).2.process
    ¬ IsLines forging.written.length forging.logText.toList ∧
    forging.logText = honest.logText ∧ forging.written.length ≠ honest.written.length := by
  intro name forging honest
  have hf : forging.written = [.initialized 0 0, .nilLookup (.name name)] := rfl
  have hh : honest.written =
      [.initialized 0 0, .nilLookup (.name "x"), .subscriberKept, .initialized 0 0] := rfl
  have ht : forging.logText = String.join (forging.written.map (Event.line false)) :=
    logText_startDebug [askNil name]
  have hu : honest.logText = String.join (honest.written.map (Event.line false)) :=
    logText_startDebug [askNil "x", startDebug]
  refine ⟨fun h => ?_, ?_, ?_⟩
  · have hm : Event.nilLookup (.name name) ∈ forging.written :=
      hf ▸ List.mem_cons_of_mem _ (List.mem_singleton_self _)
    exact forging.isLines_logText.1 h name hm (by simp [name])
  -- The two lists of events differ, and their texts do not.
  · rw [ht, hu, hf, hh]
    decide +kernel
  · rw [hf, hh]
    decide

end Script.Session

end ObjectModel
