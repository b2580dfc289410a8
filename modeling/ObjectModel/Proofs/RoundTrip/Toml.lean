import Mathlib
import ObjectModel.Toml.Document
import ObjectModel.Toml.Writer

/-!
Reading TOML back. A written text is read as its value wherever it stands in a document, so each
lemma leaves open what follows: characters first, then strings, arrays and the lines made of them.
-/

namespace ObjectModel.Toml

open List (Forall₂)

variable {c : Char} {cs rest : List Char}

/-! ### Strings -/

lemma hexValue?_digitChar : ∀ d < 16, hexValue? (Nat.digitChar d) = some d := by decide

lemma hexNumber?_fourDigits {n : Nat} (h : n < 65536) : hexNumber? (fourDigits n) = some n := by
  have hd (k : Nat) : hexValue? (Nat.digitChar (k % 16)) = some (k % 16) :=
    hexValue?_digitChar _ (Nat.mod_lt _ (by omega))
  have h3 : n / 4096 % 16 = n / 4096 := Nat.mod_eq_of_lt (by omega)
  simp only [hexNumber?, fourDigits, List.map_cons, List.map_nil, List.foldlM_cons,
    List.foldlM_nil, hd, Option.map_some, Option.bind_eq_bind, Option.bind_some, Option.pure_def,
    Option.some.injEq]
  omega

lemma codePoint?_digits {ds : List Char} (hn : hexNumber? ds = some c.toNat) (rest : List Char) :
    codePoint? ds.length (ds ++ rest) = some (c, rest) := by
  have ht : (ds ++ rest).take ds.length = ds := List.take_left
  have hd : (ds ++ rest).drop ds.length = rest := List.drop_left
  have hv : c.toNat.isValidChar := c.valid
  unfold codePoint?
  rw [if_pos (by simp), ht, hd, hn]
  simp only [if_pos hv, Char.ofNat_toNat]

/-- The escapes of two characters. -/
def shortEscapes : List (Char × Char) :=
  [('b', '\x08'), ('t', '\t'), ('n', '\n'), ('f', '\x0c'), ('r', '\r'), ('"', '"'), ('\\', '\\')]

/-- The ways to write a character between quotes: as it is or by an escape, and always by an escape
if it is a quote, a backslash or a control. -/
inductive Spells (c : Char) : List Char → Prop where
  | plain (hq : c ≠ '"') (hb : c ≠ '\\') (hc : ¬ isControl c) : Spells c [c]
  | short {e : Char} (h : (e, c) ∈ shortEscapes) : Spells c ['\\', e]
  | four {ds : List Char} (hl : ds.length = 4) (hn : hexNumber? ds = some c.toNat) :
      Spells c ('\\' :: 'u' :: ds)
  | eight {ds : List Char} (hl : ds.length = 8) (hn : hexNumber? ds = some c.toNat) :
      Spells c ('\\' :: 'U' :: ds)

lemma spells_writeChar (c : Char) : Spells c (writeChar c) := by
  unfold writeChar
  split_ifs with hq hb hc
  · exact .short (by simp [shortEscapes, hq])
  · exact .short (by simp [shortEscapes, hb])
  · have hlt : c.toNat < 65536 := by
      simp only [isControl, Bool.or_eq_true, Bool.and_eq_true, decide_eq_true_eq] at hc
      omega
    exact .four rfl (hexNumber?_fourDigits hlt)
  · exact .plain hq hb hc

lemma isLineChar_of_not_isControl (h : ¬ isControl c) : isLineChar c := by
  simp only [isControl, Bool.or_eq_true, Bool.and_eq_true, decide_eq_true_eq] at h
  simp only [isLineChar, Bool.or_eq_true, Bool.and_eq_true, decide_eq_true_eq, bne_iff_ne]
  omega

/-- An escape reads as the character that it stands for. -/
lemma lineBody_escape {cs' : List Char} (h : escaped? cs = some (c, cs')) :
    lineBody .basic ('\\' :: cs) = (lineBody .basic cs').map fun r => (c :: r.1, r.2) := by
  have hm : ('\\' : Char) ≠ Quoting.basic.mark := by decide
  have ha : Quoting.basic.admits '\\' = false := by decide
  have he : (Quoting.basic.escapes && decide ('\\' = '\\')) = true := by decide
  rw [lineBody, if_neg hm, if_neg (by simp [ha]), if_pos he]
  split
  · next e cs'' h' =>
    cases h.symm.trans h'
    rfl
  · next h' => cases h.symm.trans h'

/-- Every character is read back from each of its spellings, whatever follows. -/
lemma Spells.lineBody_append (h : Spells c cs) (rest : List Char) :
    lineBody .basic (cs ++ rest) = (lineBody .basic rest).map fun r => (c :: r.1, r.2) := by
  cases h with
  | plain hq hb hc =>
    have ha : Quoting.basic.admits c := by
      simp only [Quoting.admits, Quoting.basic, isLineChar_of_not_isControl hc, Bool.true_and,
        Bool.and_eq_true, bne_iff_ne, Bool.not_eq_true', beq_eq_false_iff_ne]
      exact ⟨hq, hb⟩
    have hm : c ≠ Quoting.basic.mark := hq
    rw [List.singleton_append, lineBody, if_neg hm, if_pos ha]
  | short h =>
    refine lineBody_escape (show escaped? _ = some (c, rest) from ?_)
    simp only [shortEscapes, List.mem_cons, List.not_mem_nil, or_false, Prod.mk.injEq] at h
    rcases h with ⟨rfl, rfl⟩ | ⟨rfl, rfl⟩ | ⟨rfl, rfl⟩ | ⟨rfl, rfl⟩ | ⟨rfl, rfl⟩ | ⟨rfl, rfl⟩ |
      ⟨rfl, rfl⟩
    all_goals rfl
  | four hl hn =>
    have hp := codePoint?_digits hn rest
    rw [hl] at hp
    exact lineBody_escape hp
  | eight hl hn =>
    have hp := codePoint?_digits hn rest
    rw [hl] at hp
    exact lineBody_escape hp

/-- No spelling begins with the quote that would close the string. -/
lemma Spells.exists_cons (h : Spells c cs) : ∃ d ds, cs = d :: ds ∧ d ≠ '"' := by
  cases h with
  | plain hq => exact ⟨c, [], rfl, hq⟩
  | _ => exact ⟨'\\', _, rfl, by decide⟩

/-- The text is the string between quotes, however its characters are spelled. -/
def Quotes (text s : String) : Prop :=
  ∃ spellings, Forall₂ Spells s.toList spellings ∧
    text.toList = '"' :: (spellings.flatten ++ ['"'])

lemma quotes_writeString (s : String) : Quotes (writeString s) s := by
  refine ⟨s.toList.map writeChar, ?_, by simp [writeString, List.flatMap_def]⟩
  rw [List.forall₂_map_right_iff, List.forall₂_same]
  exact fun c _ => spells_writeChar c

section Spelled

variable {spellings : List (List Char)} {text s : String}

lemma lineBody_spelled (h : Forall₂ Spells cs spellings) (rest : List Char) :
    lineBody .basic (spellings.flatten ++ '"' :: rest) = some (cs, rest) := by
  induction h with
  | nil => simp [lineBody, Quoting.basic]
  | cons hc _ ih =>
    rw [List.flatten_cons, List.append_assoc, hc.lineBody_append, ih]
    rfl

lemma head?_spelled (h : Forall₂ Spells cs spellings) : spellings.flatten.head? ≠ some '"' := by
  cases h with
  | nil => simp
  | cons hc =>
    obtain ⟨d, ds, rfl, hd⟩ := hc.exists_cons
    simpa using hd

/-- Only three equal characters open a string of several lines. -/
lemma string?_eq_lineString? (h : ∀ a ds, cs ≠ a :: a :: a :: ds) :
    string? cs = lineString? cs := by
  unfold string?
  split
  · next a b c ds =>
    refine if_neg ?_
    rintro ⟨rfl, rfl⟩
    exact h _ _ rfl
  · rfl

lemma Quotes.lineString?_append (h : Quotes text s) (rest : List Char) :
    lineString? (text.toList ++ rest) = some (s, rest) := by
  obtain ⟨spellings, hs, ht⟩ := h
  have hq : Quoting.ofMark? '"' = some .basic := rfl
  rw [ht, List.cons_append, List.append_assoc, lineString?, hq]
  simp only [List.singleton_append, Option.bind_eq_bind, Option.bind_some, lineBody_spelled hs,
    String.ofList_toList]
  rfl

/-- A string reads back, whatever follows but another quote. -/
lemma Quotes.string?_append (h : Quotes text s) (hr : rest.head? ≠ some '"') :
    string? (text.toList ++ rest) = some (s, rest) := by
  rw [string?_eq_lineString?, h.lineString?_append]
  intro a ds hds
  obtain ⟨spellings, hs, ht⟩ := h
  have hb := head?_spelled hs
  rw [ht] at hds
  cases hf : spellings.flatten with
  | nil =>
    -- the two quotes of the empty string would need a third one after them
    rw [hf] at hds
    cases rest with
    | nil => simp at hds
    | cons d rest =>
      simp only [List.nil_append, List.cons_append, List.cons.injEq] at hds
      obtain ⟨rfl, -, rfl, -⟩ := hds
      exact hr rfl
  | cons d ds' =>
    rw [hf] at hds hb
    simp only [List.cons_append, List.cons.injEq] at hds
    obtain ⟨rfl, rfl, -⟩ := hds
    exact hb rfl

end Spelled

/-! ### Values -/

/-- A text that reads as the value wherever it stands: with no filler in front, and followed by
anything but a quote. -/
structure Written (item : Reader Value) (text : String) (v : Value) : Prop where
  head_mem : ∃ c ∈ ['"', 't', 'f', '['], text.toList.head? = some c
  read (rest : List Char) : rest.head? ≠ some '"' → item (text.toList ++ rest) = some (v, rest)

namespace Written

variable {item : Reader Value} {text : String} {v : Value}

lemma exists_cons (h : Written item text v) : ∃ c cs, text.toList = c :: cs ∧
    isSpace c = false ∧ c ≠ '\n' ∧ c ≠ '\r' ∧ c ≠ '#' ∧ c ≠ ']' := by
  obtain ⟨c, hc, ht⟩ := h.head_mem
  cases hl : text.toList with
  | nil => simp [hl] at ht
  | cons d cs =>
    rw [hl, List.head?_cons, Option.some_inj] at ht
    subst ht
    refine ⟨d, cs, rfl, ?_⟩
    simp only [List.mem_cons, List.not_mem_nil, or_false] at hc
    rcases hc with rfl | rfl | rfl | rfl <;> decide

lemma skipSpaces_eq (h : Written item text v) (rest : List Char) :
    skipSpaces (text.toList ++ rest) = text.toList ++ rest := by
  obtain ⟨c, cs, ht, hs, -⟩ := h.exists_cons
  rw [ht, List.cons_append, skipSpaces, List.dropWhile_cons_of_neg (by simp [hs])]

lemma skipFiller_eq (h : Written item text v) (rest : List Char) :
    skipFiller false (text.toList ++ rest) = text.toList ++ rest := by
  obtain ⟨c, cs, ht, hs, hn, hr, hc, -⟩ := h.exists_cons
  rw [ht, List.cons_append]
  unfold skipFiller
  split <;> simp_all

end Written

lemma scalar?_of_string {s : String} (h : string? cs = some (s, rest)) :
    scalar? cs = some (.string s, rest) := by
  rw [scalar?, h]

/-- Only brackets and braces make it matter how deep a value may nest. -/
lemma value?_eq_scalar? (hb : cs.head? ≠ some '[') (hc : cs.head? ≠ some '\x7b') (depth : Nat) :
    value? depth cs = scalar? cs := by
  cases depth with
  | zero => rfl
  | succ depth =>
    cases cs with
    | nil => rfl
    | cons c cs =>
      have h₁ : '[' ≠ c := fun h => hb (h ▸ rfl)
      have h₂ : '\x7b' ≠ c := fun h => hc (h ▸ rfl)
      simp only [value?, after?, if_neg h₁, if_neg h₂]

lemma written_string (depth : Nat) {text s : String} (h : Quotes text s) :
    Written (value? depth) text (.string s) := by
  have hh : text.toList.head? = some '"' := by
    obtain ⟨spellings, -, ht⟩ := h
    rw [ht]
    rfl
  refine ⟨⟨'"', by simp, hh⟩, fun rest hr => ?_⟩
  have hh' : (text.toList ++ rest).head? = some '"' := by
    rw [List.head?_append, hh]
    rfl
  rw [value?_eq_scalar? (by simp [hh']) (by simp [hh']), scalar?_of_string (h.string?_append hr)]

lemma written_bool (depth : Nat) (b : Bool) :
    Written (value? depth) (writeBool b) (.boolean b) where
  head_mem := by cases b <;> exact ⟨_, by decide, rfl⟩
  read rest _ := by
    cases b
    all_goals
      rw [value?_eq_scalar? (by simp [writeBool]) (by simp [writeBool])]
      rfl

lemma length_skipFiller_le (o : Bool) (cs : List Char) : (skipFiller o cs).length ≤ cs.length := by
  fun_induction skipFiller o cs <;> simp_all <;> omega

/-- What reading an array does with one item in front. -/
lemma arrayItems_cons {item : Reader Value} {text : String} {v : Value} (h : Written item text v)
    {more : List Char} (hcs : skipFiller false cs = text.toList ++ more)
    (hm : more.head? ≠ some '"') :
    arrayItems item cs =
      match skipFiller false more with
      | ']' :: rest => some ([v], rest)
      | ',' :: rest =>
        if rest.length < cs.length then
          (arrayItems item rest).map fun r => (v :: r.1, r.2)
        else none
      | _ => none := by
  obtain ⟨c, tail, ht, -, -, -, -, hc⟩ := h.exists_cons
  have hr := h.read more hm
  rw [arrayItems, hcs]
  rw [ht, List.cons_append] at hr ⊢
  split
  · next heq => exact absurd (List.cons.inj heq).1 hc
  · rw [hr]
    rfl

lemma skipFiller_joined {item : Reader Value} {texts : List String} {vs : List Value}
    (h : Forall₂ (Written item) texts vs) (rest : List Char) :
    skipFiller false ((Text.joined texts).toList ++ ']' :: rest) =
      (Text.joined texts).toList ++ ']' :: rest := by
  cases h with
  | nil => rfl
  | @cons t _ texts _ ht h =>
    obtain ⟨more, hm⟩ : ∃ more, (Text.joined (t :: texts)).toList ++ ']' :: rest =
        t.toList ++ more := by
      cases h with
      | nil => exact ⟨_, rfl⟩
      | cons => exact ⟨_, by rw [Text.joined_cons_cons, String.toList_append, String.toList_append,
          List.append_assoc, List.append_assoc]⟩
    rw [hm, ht.skipFiller_eq]

/-- Written values with commas between them read as the items of an array. -/
lemma arrayItems_joined {item : Reader Value} {texts : List String} {vs : List Value}
    (h : Forall₂ (Written item) texts vs) (rest : List Char)
    (hcs : skipFiller false cs = (Text.joined texts).toList ++ ']' :: rest) :
    arrayItems item cs = some (vs, rest) := by
  induction h generalizing cs with
  | nil =>
    rw [arrayItems, hcs]
    rfl
  | @cons t v texts vs ht h ih =>
    cases h with
    | nil =>
      rw [arrayItems_cons ht hcs (by simp)]
      rfl
    | @cons t' v' texts vs ht' h =>
      have hcs' : skipFiller false cs =
          t.toList ++ ',' :: ' ' :: ((Text.joined (t' :: texts)).toList ++ ']' :: rest) := by
        rw [hcs, Text.joined_cons_cons]
        simp
      have hs : skipFiller false (' ' :: ((Text.joined (t' :: texts)).toList ++ ']' :: rest)) =
          (Text.joined (t' :: texts)).toList ++ ']' :: rest :=
        skipFiller_joined (.cons ht' h) rest
      have hl := length_skipFiller_le false cs
      rw [hcs', List.length_append, List.length_cons] at hl
      rw [arrayItems_cons ht hcs' (by simp)]
      change (if _ then _ else none) = _
      rw [if_pos (by omega), ih hs]
      rfl

/-- An array of written values is a written value, which nests one deeper. -/
lemma written_array {depth : Nat} {texts : List String} {vs : List Value}
    (h : Forall₂ (Written (value? depth)) texts vs) :
    Written (value? (depth + 1)) ("[" ++ Text.joined texts ++ "]") (.array vs) where
  head_mem := ⟨'[', by simp, by simp⟩
  read rest _ := by
    have ht : ("[" ++ Text.joined texts ++ "]").toList ++ rest =
        '[' :: ((Text.joined texts).toList ++ ']' :: rest) := by simp
    have ha : arrayItems (value? depth) ((Text.joined texts).toList ++ ']' :: rest) =
        some (vs, rest) := arrayItems_joined h rest (skipFiller_joined h rest)
    rw [ht, value?]
    simp only [after?, if_true, ha, Option.map_some]

lemma written_strings (depth : Nat) {texts ss : List String} (h : Forall₂ Quotes texts ss) :
    Written (value? (depth + 1)) ("[" ++ Text.joined texts ++ "]") (.array (ss.map .string)) := by
  refine written_array ?_
  rw [List.forall₂_map_right_iff]
  exact h.imp fun _ _ h => written_string depth h

/-! ### Lines -/

variable {name tail : List Char}

lemma ne_of_isBareChar (h : isBareChar c) :
    isSpace c = false ∧ c ∉ ['"', '\'', '[', '#', '\n', '\r'] := by
  constructor
  · by_contra hs
    simp only [isSpace, Bool.or_eq_true, decide_eq_true_eq, Bool.not_eq_false] at hs
    rcases hs with rfl | rfl <;> exact absurd h (by decide)
  · intro hc
    simp only [List.mem_cons, List.not_mem_nil, or_false] at hc
    rcases hc with rfl | rfl | rfl | rfl | rfl | rfl <;> exact absurd h (by decide)

lemma skipSpaces_cons (h : isSpace c = false) : skipSpaces (c :: cs) = c :: cs :=
  List.dropWhile_cons_of_neg (by simp [h])

/-- A name in bare characters, and what comes behind the spaces after it. -/
lemma keyPart?_bare (hn : name ≠ []) (hb : ∀ c ∈ name, isBareChar c)
    (ht : tail.head?.all fun c => !isBareChar c) :
    keyPart? (name ++ tail) = some (String.ofList name, skipSpaces tail) := by
  have htw : (name ++ tail).takeWhile isBareChar = name := by
    rw [List.takeWhile_append_of_pos hb]
    cases tail with
    | nil => simp
    | cons c tail => simp_all
  have hdw : (name ++ tail).dropWhile isBareChar = tail := by
    rw [List.dropWhile_append_of_pos hb]
    cases tail with
    | nil => simp
    | cons c tail => simp_all
  obtain ⟨c, cs, rfl⟩ := List.exists_cons_of_ne_nil hn
  obtain ⟨hs, hc⟩ := ne_of_isBareChar (hb c (List.mem_cons_self ..))
  simp only [List.mem_cons, List.not_mem_nil, or_false, not_or] at hc
  have hq : lineString? (c :: cs ++ tail) = none := by
    have ho : Quoting.ofMark? c = none := by
      simp [Quoting.ofMark?, Quoting.basic, Quoting.literal, hc]
    rw [List.cons_append, lineString?, ho]
    rfl
  have hk : bareKey? (c :: cs ++ tail) = some (String.ofList (c :: cs), tail) := by
    simp only [bareKey?, htw, hdw]
    rfl
  rw [keyPart?, List.cons_append, skipSpaces_cons hs, ← List.cons_append, hq, hk]
  rfl

lemma key?_bare (hn : name ≠ []) (hb : ∀ c ∈ name, isBareChar c)
    (ht : tail.head?.all fun c => !isBareChar c) (hs : skipSpaces tail = c :: cs) (hc : c ≠ '.') :
    key? (name ++ tail) = some (⟨[], String.ofList name⟩, c :: cs) := by
  have hk := keyPart?_bare hn hb ht
  rw [hs] at hk
  rw [key?, separated, hk]
  simp only [if_neg hc]
  rfl

lemma lineEnd?_eq_none (hs : isSpace c = false) (hc : c ≠ '#') (hn : c ≠ '\n') (hr : c ≠ '\r')
    (cs : List Char) : lineEnd? (c :: cs) = none := by
  have hk : skipComment (c :: cs) = c :: cs := by
    unfold skipComment
    split
    · next heq => exact absurd (List.cons.inj heq).1 hc
    · rfl
  unfold lineEnd?
  rw [skipSpaces_cons hs, hk]
  unfold newline?
  split <;> simp_all

/-- A header with a name in bare characters. -/
lemma line?_header (hn : name ≠ []) (hb : ∀ c ∈ name, isBareChar c) (rest : List Char) :
    line? ('[' :: (name ++ ']' :: '\n' :: rest)) =
      some (some (.table ⟨[], String.ofList name⟩), rest) := by
  have hk : key? (name ++ ']' :: '\n' :: rest) =
      some (⟨[], String.ofList name⟩, ']' :: '\n' :: rest) :=
    key?_bare hn hb rfl rfl (by decide)
  obtain ⟨c, cs, rfl⟩ := List.exists_cons_of_ne_nil hn
  have hc := (ne_of_isBareChar (hb c (List.mem_cons_self ..))).2
  have hs : skipSpaces ('[' :: (c :: cs ++ ']' :: '\n' :: rest)) =
      '[' :: (c :: cs ++ ']' :: '\n' :: rest) := rfl
  unfold line?
  rw [hs]
  split
  · next heq =>
    cases heq
    simp at hc
  · next heq =>
    cases heq
    rw [hk]
    rfl
  · next h => exact absurd rfl (h _)

/-- A name in bare characters with a written value. -/
lemma line?_pair (hn : name ≠ []) (hb : ∀ c ∈ name, isBareChar c) {text : String} {v : Value}
    (hv : Written (value? (nestingLimit - 1)) text v) (rest : List Char) :
    line? (name ++ ' ' :: '=' :: ' ' :: (text.toList ++ '\n' :: rest)) =
      some (some (.pair ⟨[], String.ofList name⟩ v), rest) := by
  have hp : pair? (value? (nestingLimit - 1))
      (name ++ ' ' :: '=' :: ' ' :: (text.toList ++ '\n' :: rest)) =
        some ((⟨[], String.ofList name⟩, v), '\n' :: rest) := by
    have hk : key? (name ++ ' ' :: '=' :: ' ' :: (text.toList ++ '\n' :: rest)) =
        some (⟨[], String.ofList name⟩, '=' :: ' ' :: (text.toList ++ '\n' :: rest)) :=
      key?_bare hn hb rfl rfl (by decide)
    have hs : skipSpaces (' ' :: (text.toList ++ '\n' :: rest)) = text.toList ++ '\n' :: rest :=
      hv.skipSpaces_eq _
    have hr := hv.read ('\n' :: rest) (by simp)
    rw [pair?, hk]
    simp only [Option.bind_eq_bind, Option.bind_some, after?, if_true, hs, hr]
    rfl
  obtain ⟨c, cs, rfl⟩ := List.exists_cons_of_ne_nil hn
  obtain ⟨hs, hc⟩ := ne_of_isBareChar (hb c (List.mem_cons_self ..))
  simp only [List.mem_cons, List.not_mem_nil, or_false, not_or] at hc
  rw [List.cons_append] at hp ⊢
  have he := lineEnd?_eq_none hs hc.2.2.2.1 hc.2.2.2.2.1 hc.2.2.2.2.2
    (cs ++ ' ' :: '=' :: ' ' :: (text.toList ++ '\n' :: rest))
  unfold line?
  rw [skipSpaces_cons hs]
  split
  · next heq => exact absurd (List.cons.inj heq).1 hc.2.2.1
  · next heq => exact absurd (List.cons.inj heq).1 hc.2.2.1
  · rw [he, hp]
    rfl

lemma statements?_cons {s : Option Statement} (h : line? cs = some (s, rest))
    (hl : rest.length < cs.length) :
    statements? cs = (statements? rest).map (s.toList ++ ·) := by
  cases cs with
  | nil => simp at hl
  | cons c cs =>
    rw [statements?, h]
    exact dif_pos (Nat.le_of_lt_succ hl)

/-! ### Statements -/

/-- A name that needs no quotes as a key. -/
def Bare (name : String) : Prop := name.toList ≠ [] ∧ ∀ c ∈ name.toList, isBareChar c

variable {name : String} {ss : List Statement}

lemma statements?_header (hn : Bare name) (hs : statements? rest = some ss) :
    statements? ('[' :: (name.toList ++ ']' :: '\n' :: rest)) = some (.table ⟨[], name⟩ :: ss) := by
  have hl := line?_header hn.1 hn.2 rest
  rw [String.ofList_toList] at hl
  rw [statements?_cons hl (by simp; omega), hs]
  rfl

lemma statements?_pair {text : String} {v : Value} (hn : Bare name)
    (hv : Written (value? (nestingLimit - 1)) text v) (hs : statements? rest = some ss) :
    statements? (name.toList ++ ' ' :: '=' :: ' ' :: (text.toList ++ '\n' :: rest)) =
      some (.pair ⟨[], name⟩ v :: ss) := by
  have hl := line?_pair hn.1 hn.2 hv rest
  rw [String.ofList_toList] at hl
  rw [statements?_cons hl (by simp; omega), hs]
  rfl

end ObjectModel.Toml
