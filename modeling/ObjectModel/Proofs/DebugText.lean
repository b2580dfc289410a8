import Mathlib
import ObjectModel.Proofs.Delimited
import ObjectModel.Shape.Debug

/-!
The text of a value for its programmer says all that can be seen of the value, unless there is a
float or a function in it: from the text, and in front of anything else, its shape can be told.
Nothing in the value breaks the line. Main statement: `Shape.debug_laws`.
-/

namespace ObjectModel

open Text (Outline Delimits closed)

/-! ### The kinds -/

/-- No kind has a name that begins as the name of another one does. -/
lemma Kind.eq_of_name_append {j k : Kind} {x y : List Char}
    (h : j.name.toList ++ x = k.name.toList ++ y) : j = k := by
  have ht (k : Kind) (x : List Char) :
      (k.name.toList ++ x).take 2 = k.name.toList.take 2 := by
    cases k <;> rfl
  have h := congrArg (List.take 2) h
  rw [ht, ht] at h
  cases j <;> cases k <;> first
    | rfl
    | exact absurd h (by decide)

namespace Shape

def kind : Shape → Kind
  | nil => .nil
  | null => .null
  | bool _ => .bool
  | int _ => .int
  | float _ => .float
  | str _ => .str
  | keyword _ => .keyword
  | list _ => .list
  | object _ => .object
  | map _ => .map
  | function _ _ => .function

def text (s : Shape) : List Char := s.debug.toList

/-- Nowhere in it is a float or a function. -/
inductive Plain : Shape → Prop where
  | nil : Plain nil
  | null : Plain null
  | bool (b : Bool) : Plain (bool b)
  | int (n : Int64) : Plain (int n)
  | str (s : String) : Plain (str s)
  | keyword (name : String) : Plain (keyword name)
  | list {items : List Shape} (h : ∀ s ∈ items, Plain s) : Plain (list items)
  | object {members : List (String × Shape)} (h : ∀ m ∈ members, Plain m.2) :
      Plain (object members)
  | map {entries : List (MapKey String × Shape)} (h : ∀ e ∈ entries, Plain e.2) :
      Plain (map entries)

lemma outlines_eq_map (items : List Shape) : outlines items = items.map outline := by
  induction items with
  | nil => rfl
  | cons s items ih => rw [outlines, ih]; rfl

lemma memberOutlines_eq_map (members : List (String × Shape)) :
    memberOutlines members = members.map fun m => (quotedLeaf m.1, m.2.outline) := by
  induction members with
  | nil => rfl
  | cons m members ih => obtain ⟨k, s⟩ := m; rw [memberOutlines, ih]; rfl

lemma entryOutlines_eq_map (entries : List (MapKey String × Shape)) :
    entryOutlines entries = entries.map fun e => (e.1.outline, e.2.outline) := by
  induction entries with
  | nil => rfl
  | cons e entries ih => obtain ⟨k, s⟩ := e; rw [entryOutlines, ih]; rfl

end Shape

namespace Text.Outline

lemma inlineAll_eq_map (os : List Outline) : inlineAll os = os.map inline := by
  induction os with
  | nil => rfl
  | cons o os ih => rw [inlineAll, ih]; rfl

lemma inlineEntries_eq_map (es : List (Outline × Outline)) :
    inlineEntries es = es.map fun e => e.1.inline ++ ": " ++ e.2.inline := by
  induction es with
  | nil => rfl
  | cons e es ih => obtain ⟨k, o⟩ := e; rw [inlineEntries, ih]; rfl

lemma toList_wrapper (name : String) (o : Outline) : (wrapper name [o]).inline.toList =
    name.toList ++ ("(".toList ++ (o.inline.toList ++ ")".toList)) := by
  simp [inline, inlineAll]

lemma toList_record (name field : String) (o : Outline) :
    (record name [(field, o)]).inline.toList = name.toList ++ (" \x7b ".toList ++
      (field.toList ++ (": ".toList ++ (o.inline.toList ++ " \x7d".toList)))) := by
  simp [inline, inlineFields]

lemma toList_list (os : List Outline) : (list os).inline.toList =
    "[".toList ++ closed ']' (os.map fun o => o.inline.toList) := by
  have hj := toList_joined (os.map inline) ']'
  rw [List.map_map] at hj
  rw [inline, inlineAll_eq_map]
  simp only [String.toList_append, List.append_assoc]
  exact congrArg _ hj

lemma toList_table (es : List (Outline × Outline)) : (table es).inline.toList =
    "\x7b".toList ++ closed '\x7d'
      (es.map fun e => e.1.inline.toList ++ (": ".toList ++ e.2.inline.toList)) := by
  have hj := toList_joined (es.map fun e => e.1.inline ++ ": " ++ e.2.inline) '\x7d'
  rw [List.map_map] at hj
  rw [inline, inlineEntries_eq_map]
  simp only [String.toList_append, List.append_assoc]
  simp only [Function.comp_def, String.toList_append, List.append_assoc] at hj
  exact congrArg _ hj

end Text.Outline

namespace Shape

lemma text_bool (b : Bool) : (bool b).text = "Bool(".toList ++ ((boolText b).toList ++ [')']) :=
  Outline.toList_wrapper _ _

lemma text_int (n : Int64) : (int n).text = "Int(".toList ++ (Text.writeInt n.toInt ++ [')']) := by
  have hn : (intText n).toList = Text.writeInt n.toInt := String.toList_ofList
  rw [← hn]
  exact Outline.toList_wrapper _ _

lemma text_str (s : String) : (str s).text = "Str(".toList ++ ((Text.quote s).toList ++ [')']) :=
  Outline.toList_wrapper _ _

lemma text_keyword (name : String) : (keyword name).text =
    "Keyword(Keyword(".toList ++ ((Text.quote name).toList ++ "))".toList) := by
  rw [text, debug, outline, Outline.toList_wrapper, keywordOutline, Outline.toList_wrapper]
  simp only [List.append_assoc]
  rfl

lemma text_list (items : List Shape) : (list items).text =
    "List([".toList ++ (closed ']' (items.map text) ++ ")".toList) := by
  rw [text, debug, outline, Outline.toList_wrapper, Outline.toList_list, outlines_eq_map,
    List.map_map]
  rfl

/-- A member as objects write it. -/
def memberText (m : String × Shape) : List Char :=
  (Text.quote m.1).toList ++ (": ".toList ++ m.2.text)

lemma text_object (members : List (String × Shape)) : (object members).text =
    "Object(ObjectLiteral \x7b members: \x7b".toList ++
      (closed '\x7d' (members.map memberText) ++ " \x7d)".toList) := by
  rw [text, debug, outline, Outline.toList_wrapper, Outline.toList_record, Outline.toList_table,
    memberOutlines_eq_map, List.map_map]
  simp only [List.append_assoc]
  rfl

/-- An entry as maps write it. -/
def entryText (e : MapKey String × Shape) : List Char :=
  e.1.debug.toList ++ (": ".toList ++ e.2.text)

lemma text_map (entries : List (MapKey String × Shape)) : (map entries).text =
    "Map(\x7b".toList ++ (closed '\x7d' (entries.map entryText) ++ ")".toList) := by
  rw [text, debug, outline, Outline.toList_wrapper, Outline.toList_table, entryOutlines_eq_map,
    List.map_map]
  rfl

/-- The text begins with the name of the kind. -/
lemma exists_text (s : Shape) : ∃ l, s.text = s.kind.name.toList ++ l := by
  have wrapper (name : String) (o : Outline) :
      ∃ l, (Outline.wrapper name [o]).inline.toList = name.toList ++ l :=
    ⟨_, Outline.toList_wrapper name o⟩
  unfold text debug
  cases s with
  | nil => exact ⟨[], rfl⟩
  | null => exact ⟨[], rfl⟩
  | _ => exact wrapper _ _

lemma kind_eq {s t : Shape} {x y : List Char} (h : s.text ++ x = t.text ++ y) :
    s.kind = t.kind := by
  obtain ⟨l, hl⟩ := s.exists_text
  obtain ⟨m, hm⟩ := t.exists_text
  rw [hl, hm, List.append_assoc, List.append_assoc] at h
  exact Kind.eq_of_name_append h

lemma text_ne_closing {c : Char} (hc : c = ']' ∨ c = '\x7d') (s : Shape) (x y : List Char) :
    s.text ++ x ≠ c :: y := by
  obtain ⟨l, hl⟩ := s.exists_text
  rw [hl]
  intro h
  obtain rfl | rfl := hc <;> cases hk : s.kind <;> rw [hk] at h <;> cases (List.cons.inj h).1

/-! ### Where a text ends -/

/-- Texts of one kind are told apart by what they have behind their beginning. -/
lemma delimits_text {α : Type} (make : α → Shape) {before : List Char} {D : Set α}
    {f : α → List Char} {a : α} (ht : ∀ a, (make a).text = before ++ f a)
    (hk : ∀ t, t.Plain → (make a).kind = t.kind → ∃ b ∈ D, t = make b) (h : Delimits D f a) :
    Delimits {t | t.Plain} text (make a) := by
  intro t hp x y he
  obtain ⟨b, hb, rfl⟩ := hk t hp (kind_eq he)
  rw [ht, ht, List.append_assoc, List.append_assoc] at he
  obtain ⟨rfl, hxy⟩ := h hb (List.append_cancel_left he)
  exact ⟨rfl, hxy⟩

lemma delimits_nil : Delimits {t | t.Plain} text nil := by
  intro t ht x y h
  have hk := kind_eq h
  cases ht with
  | nil => exact ⟨rfl, List.append_cancel_left h⟩
  | _ => cases hk

lemma delimits_null : Delimits {t | t.Plain} text null := by
  intro t ht x y h
  have hk := kind_eq h
  cases ht with
  | null => exact ⟨rfl, List.append_cancel_left h⟩
  | _ => cases hk

lemma delimits_bool (b : Bool) : Delimits {t | t.Plain} text (bool b) := by
  have hd : Delimits Set.univ (fun b => (boolText b).toList ++ [')']) b :=
    Text.delimits_of_notMem (by decide) (by decide)
  refine delimits_text bool text_bool (fun t ht hk => ?_) hd
  cases ht with
  | bool b => exact ⟨b, trivial, rfl⟩
  | _ => cases hk

lemma delimits_int (n : Int64) : Delimits {t | t.Plain} text (int n) := by
  have hd : Delimits Set.univ (fun n : Int64 => Text.writeInt n.toInt ++ [')']) n :=
    Text.delimits_of_notMem (fun n => Text.notMem_writeInt (by decide) (by decide) _)
      fun n m h => Int64.toInt_inj.1 (Text.writeInt_injective h)
  refine delimits_text int text_int (fun t ht hk => ?_) hd
  cases ht with
  | int n => exact ⟨n, trivial, rfl⟩
  | _ => cases hk

lemma delimits_str (s : String) : Delimits {t | t.Plain} text (str s) := by
  refine delimits_text str text_str (fun t ht hk => ?_) ((Text.delimits_quote s).append _)
  cases ht with
  | str s => exact ⟨s, trivial, rfl⟩
  | _ => cases hk

lemma delimits_keyword (name : String) : Delimits {t | t.Plain} text (keyword name) := by
  refine delimits_text keyword text_keyword (fun t ht hk => ?_)
    ((Text.delimits_quote name).append _)
  cases ht with
  | keyword name => exact ⟨name, trivial, rfl⟩
  | _ => cases hk

end Shape

/-! ### Keys of maps -/

/-- The key as a value. -/
def MapKey.toShape : MapKey String → Shape
  | .str s => .str s
  | .int n => .int n
  | .bool b => .bool b
  | .keyword name => .keyword name

namespace MapKey

lemma toList_debug (k : MapKey String) : k.debug.toList = k.toShape.text := by
  cases k <;> rfl

lemma toShape_injective : toShape.Injective := by
  intro j k h
  cases j <;> cases k <;> cases h <;> rfl

lemma plain_toShape (k : MapKey String) : k.toShape.Plain := by
  cases k with
  | str s => exact .str s
  | int n => exact .int n
  | bool b => exact .bool b
  | keyword name => exact .keyword name

lemma delimits_debug (k : MapKey String) : Delimits Set.univ (fun k => k.debug.toList) k := by
  have hs : Delimits {t | t.Plain} Shape.text k.toShape := by
    cases k with
    | str s => exact Shape.delimits_str s
    | int n => exact Shape.delimits_int n
    | bool b => exact Shape.delimits_bool b
    | keyword name => exact Shape.delimits_keyword name
  intro j _ x y h
  simp only [toList_debug] at h
  obtain ⟨he, hxy⟩ := hs j.plain_toShape h
  exact ⟨toShape_injective he, hxy⟩

end MapKey

namespace Shape

/-! ### Aggregates -/

lemma delimits_member {m : String × Shape} (h : Delimits {t | t.Plain} text m.2) :
    Delimits {m | m.2.Plain} memberText m := by
  intro n hn x y he
  exact (Text.delimits_quote m.1).pair h ": ".toList ⟨trivial, hn⟩ he

lemma delimits_entry {e : MapKey String × Shape} (h : Delimits {t | t.Plain} text e.2) :
    Delimits {e | e.2.Plain} entryText e := by
  intro n hn x y he
  exact e.1.delimits_debug.pair h ": ".toList ⟨trivial, hn⟩ he

lemma memberText_ne_closing (m : String × Shape) (x y : List Char) :
    memberText m ++ x ≠ '\x7d' :: y := by
  rw [memberText, Text.toList_quote]
  intro h
  cases (List.cons.inj h).1

lemma entryText_ne_closing (e : MapKey String × Shape) (x y : List Char) :
    entryText e ++ x ≠ '\x7d' :: y := by
  rw [entryText, MapKey.toList_debug, List.append_assoc]
  exact e.1.toShape.text_ne_closing (.inr rfl) _ _

/-- Aggregates are told apart by their parts, if each of these can be. -/
lemma delimits_aggregate {α : Type} (make : List α → Shape) (D : Set α) {f : α → List Char}
    {c : Char} {before after : List Char} {as : List α}
    (ht : ∀ as, (make as).text = before ++ (closed c (as.map f) ++ after))
    (hk : ∀ t, t.Plain → (make as).kind = t.kind → ∃ bs, (∀ b ∈ bs, b ∈ D) ∧ t = make bs)
    (hc : c ≠ ',') (hn : ∀ a x y, f a ++ x ≠ c :: y) (hs : ∀ a ∈ as, a ∈ D)
    (ha : ∀ a ∈ as, Delimits D f a) : Delimits {t | t.Plain} text (make as) :=
  delimits_text make ht hk ((Text.delimits_closed hc (fun a _ => hn a) hs ha).append after)

/-- By induction on the shape: each part ends by itself, and then what holds the parts. -/
lemma delimits_of_plain {s : Shape} (h : s.Plain) : Delimits {t | t.Plain} text s := by
  induction h with
  | nil => exact delimits_nil
  | null => exact delimits_null
  | bool b => exact delimits_bool b
  | int n => exact delimits_int n
  | str s => exact delimits_str s
  | keyword name => exact delimits_keyword name
  -- That an aggregate of the same kind is plain gives the domain of the parts it is compared with.
  | list hp ih =>
    refine delimits_aggregate list {s | s.Plain} text_list (fun t ht hk => ?_) (by decide)
      (text_ne_closing (.inl rfl)) hp ih
    cases ht with
    | list h => exact ⟨_, h, rfl⟩
    | _ => cases hk
  | object hp ih =>
    refine delimits_aggregate object {m | m.2.Plain} text_object (fun t ht hk => ?_) (by decide)
      memberText_ne_closing hp fun m hm => delimits_member (ih m hm)
    cases ht with
    | object h => exact ⟨_, h, rfl⟩
    | _ => cases hk
  | map hp ih =>
    refine delimits_aggregate map {e | e.2.Plain} text_map (fun t ht hk => ?_) (by decide)
      entryText_ne_closing hp fun e he => delimits_entry (ih e he)
    cases ht with
    | map h => exact ⟨_, h, rfl⟩
    | _ => cases hk

end Shape

/-! ### One line -/

namespace Decimal

lemma newline_notMem_digits (d : Decimal) : '\n' ∉ d.digits :=
  Text.notMem_toDigits (by decide) (by decide) _

lemma newline_notMem_positional (d : Decimal) (point : Bool) : '\n' ∉ d.positional point := by
  have hd := d.newline_notMem_digits
  have ht (n : Nat) : '\n' ∉ d.digits.take n := mt List.mem_of_mem_take hd
  have hr (n : Nat) : '\n' ∉ d.digits.drop n := mt List.mem_of_mem_drop hd
  have hz (n : Nat) : '\n' ∉ List.replicate n '0' := fun h => by
    cases List.eq_of_mem_replicate h
  unfold positional
  split_ifs <;> simp [hd, ht, hr, hz]

lemma newline_notMem_scientific (d : Decimal) : '\n' ∉ d.scientific := by
  have hd := d.newline_notMem_digits
  have ht : '\n' ∉ d.digits.take 1 := mt List.mem_of_mem_take hd
  have hf : '\n' ∉ d.digits.tail := mt List.mem_of_mem_tail hd
  have he : '\n' ∉ Text.writeInt d.lead := Text.notMem_writeInt (by decide) (by decide) _
  simp only [scientific]
  split_ifs <;> simp [ht, hf, he]

end Decimal

lemma Binary64.newline_notMem_text (style : NumberStyle) (x : Binary64) :
    '\n' ∉ (x.text style).toList := by
  have hm : '\n' ∉ x.magnitudeText style := by
    simp only [magnitudeText]
    split_ifs
    · decide
    · decide
    · decide
    · exact x.shortest.newline_notMem_scientific
    · exact x.shortest.newline_notMem_positional _
  unfold text
  split_ifs <;> simp [hm]

lemma newline_notMem_boolText (b : Bool) : '\n' ∉ (boolText b).toList := by cases b <;> decide

namespace Shape

lemma text_float (x : Binary64) :
    (float x).text = "Float(".toList ++ ((x.text .marked).toList ++ [')']) :=
  Outline.toList_wrapper _ _

lemma text_function (name : String) (receiver : Option Shape) : (function name receiver).text =
    "Function(Function \x7b name: ".toList ++ ((Text.quote name).toList ++
      (", bound: ".toList ++ ((boolText receiver.isSome).toList ++ " \x7d)".toList))) := by
  simp [text, debug, outline, Outline.inline, Outline.inlineAll, Outline.inlineFields, quotedLeaf]

lemma newline_notMem_bool (b : Bool) : '\n' ∉ (bool b).text := by
  rw [text_bool]
  simp [newline_notMem_boolText]

lemma newline_notMem_int (n : Int64) : '\n' ∉ (int n).text := by
  have hn := Text.notMem_writeInt (c := '\n') (by decide) (by decide) n.toInt
  rw [text_int]
  simp [hn]

lemma newline_notMem_str (s : String) : '\n' ∉ (str s).text := by
  rw [text_str]
  simp [Text.newline_notMem_escape]

lemma newline_notMem_keyword (name : String) : '\n' ∉ (keyword name).text := by
  rw [text_keyword]
  simp [Text.newline_notMem_escape]

lemma newline_notMem_key (k : MapKey String) : '\n' ∉ k.debug.toList := by
  rw [k.toList_debug]
  cases k with
  | str s => exact newline_notMem_str s
  | int n => exact newline_notMem_int n
  | bool b => exact newline_notMem_bool b
  | keyword name => exact newline_notMem_keyword name

mutual

theorem newline_notMem_text : ∀ s : Shape, '\n' ∉ s.text
  | .nil => by decide
  | .null => by decide
  | .bool b => newline_notMem_bool b
  | .int n => newline_notMem_int n
  | .float x => by
    rw [text_float]
    simp [x.newline_notMem_text]
  | .str s => newline_notMem_str s
  | .keyword name => newline_notMem_keyword name
  | .list items => by
    have hi := Text.notMem_closed (c := ']') (by decide) (by decide)
      (List.forall_mem_map.2 (newline_notMem_items items))
    rw [text_list]
    simp [hi]
  | .object members => by
    have hm := Text.notMem_closed (c := '\x7d') (by decide) (by decide)
      (List.forall_mem_map.2 (newline_notMem_members members))
    rw [text_object]
    simp [hm]
  | .map entries => by
    have he := Text.notMem_closed (c := '\x7d') (by decide) (by decide)
      (List.forall_mem_map.2 (newline_notMem_entries entries))
    rw [text_map]
    simp [he]
  | .function name receiver => by
    rw [text_function]
    simp [Text.newline_notMem_escape, newline_notMem_boolText]

theorem newline_notMem_items : ∀ items : List Shape, ∀ s ∈ items, '\n' ∉ s.text
  | [] => nofun
  | s :: items => List.forall_mem_cons.2 ⟨newline_notMem_text s, newline_notMem_items items⟩

theorem newline_notMem_members : ∀ members : List (String × Shape), ∀ m ∈ members,
    '\n' ∉ memberText m
  | [] => nofun
  | (k, s) :: members => by
    refine List.forall_mem_cons.2 ⟨?_, newline_notMem_members members⟩
    simp [memberText, Text.newline_notMem_escape, newline_notMem_text s]

theorem newline_notMem_entries : ∀ entries : List (MapKey String × Shape), ∀ e ∈ entries,
    '\n' ∉ entryText e
  | [] => nofun
  | (k, s) :: entries => by
    refine List.forall_mem_cons.2 ⟨?_, newline_notMem_entries entries⟩
    simp [entryText, newline_notMem_key, newline_notMem_text s]

end

/-- **Debug texts.** Whatever the names of the keywords are in either process, two values without
floats and functions are written alike exactly if they have the same shape. No value is written with
a newline. -/
theorem debug_laws :
    (∀ names names' (v w : Value), (v.shape names).Plain → (w.shape names').Plain →
      ((v.shape names).debug = (w.shape names').debug ↔ v.shape names = w.shape names')) ∧
    ∀ names (v : Value), '\n' ∉ (v.shape names).debug.toList := by
  refine ⟨fun names names' v w hv hw => ⟨fun h => ?_, congrArg debug⟩,
    fun names v => newline_notMem_text _⟩
  exact (delimits_of_plain hv).eq_of_eq hw (congrArg String.toList h)

end Shape

end ObjectModel
