import Mathlib
import ObjectModel.Text.Joined
import ObjectModel.Text.Numeral
import ObjectModel.Text.Quoted

/-!
Texts that show where they end. Whatever stands behind such a text, it can be told from all others
of its kind and cut off from what follows: text in quotes is of this sort, a number up to what
closes it, pairs, and lists up to their closing bracket.
-/

namespace ObjectModel.Text

variable {α : Type} {D : Set α} {f : α → List Char} {a : α} {c d : Char} {l m x y : List Char}

/-- In front of any text, the text of `a` is that of no other member of `D`, and ends in one place.
-/
def Delimits (D : Set α) (f : α → List Char) (a : α) : Prop :=
  ∀ ⦃b⦄, b ∈ D → ∀ ⦃x y⦄, f a ++ x = f b ++ y → a = b ∧ x = y

lemma Delimits.eq_of_eq (h : Delimits D f a) {b : α} (hb : b ∈ D) (he : f a = f b) : a = b :=
  (h hb (congrArg (· ++ []) he)).1

lemma eq_of_append_cons (hl : c ∉ l) (hm : c ∉ m) (h : l ++ c :: x = m ++ c :: y) :
    l = m ∧ x = y := by
  induction l generalizing m with
  | nil =>
    cases m with
    | nil => exact ⟨rfl, (List.cons.inj h).2⟩
    | cons d m => exact absurd ((List.cons.inj h).1 ▸ List.mem_cons_self) hm
  | cons d l ih =>
    cases m with
    | nil => exact absurd ((List.cons.inj h).1 ▸ List.mem_cons_self) hl
    | cons e m =>
      obtain ⟨rfl, ht⟩ := List.cons.inj h
      obtain ⟨rfl, hxy⟩ := ih (mt (List.mem_cons_of_mem d) hl) (mt (List.mem_cons_of_mem d) hm) ht
      exact ⟨rfl, hxy⟩

lemma delimits_of_notMem (hc : ∀ a, c ∉ f a) (hf : f.Injective) :
    Delimits D (fun a => f a ++ [c]) a := by
  intro b _ x y h
  simp only [List.append_assoc, List.cons_append, List.nil_append] at h
  obtain ⟨he, hxy⟩ := eq_of_append_cons (hc a) (hc b) h
  exact ⟨hf he, hxy⟩

lemma Delimits.append (h : Delimits D f a) (after : List Char) :
    Delimits D (fun a => f a ++ after) a := by
  intro b hb x y he
  rw [List.append_assoc, List.append_assoc] at he
  obtain ⟨rfl, hr⟩ := h hb he
  exact ⟨rfl, List.append_cancel_left hr⟩

/-! ### Digits -/

lemma digitChar_injective : ∀ d < 16, ∀ e < 16, Nat.digitChar d = Nat.digitChar e → d = e := by
  decide

lemma mem_toDigits {b n : Nat} (hb : 1 < b) (h : c ∈ Nat.toDigits b n) :
    ∃ d < b, c = Nat.digitChar d := by
  induction n using Nat.strong_induction_on with
  | _ n ih =>
    obtain hn | hn := Nat.lt_or_ge n b
    · rw [Nat.toDigits_of_lt_base hn, List.mem_singleton] at h
      exact ⟨n, hn, h⟩
    · rw [Nat.toDigits_of_base_le hb hn, List.mem_append, List.mem_singleton] at h
      obtain h | h := h
      · exact ih _ (Nat.div_lt_self (by omega) hb) h
      · exact ⟨_, Nat.mod_lt _ (by omega), h⟩

lemma toDigits_injective {b : Nat} (hb : 1 < b) (hl : b ≤ 16) :
    (Nat.toDigits b).Injective := by
  intro n m h
  induction n using Nat.strong_induction_on generalizing m with
  | _ n ih =>
    -- A single digit is never as long as what has more of them, so both go on or both end.
    have hne (k : Nat) : Nat.toDigits b k ≠ [] := List.ne_nil_of_length_pos Nat.length_toDigits_pos
    obtain hn | hn := Nat.lt_or_ge n b <;> obtain hm | hm := Nat.lt_or_ge m b
    · rw [Nat.toDigits_of_lt_base hn, Nat.toDigits_of_lt_base hm] at h
      exact digitChar_injective n (by omega) m (by omega) (List.cons.inj h).1
    · rw [Nat.toDigits_of_lt_base hn, Nat.toDigits_of_base_le hb hm] at h
      exact absurd (List.append_eq_singleton_iff.1 h.symm) (by simp [hne])
    · rw [Nat.toDigits_of_base_le hb hn, Nat.toDigits_of_lt_base hm] at h
      exact absurd (List.append_eq_singleton_iff.1 h) (by simp [hne])
    · rw [Nat.toDigits_of_base_le hb hn, Nat.toDigits_of_base_le hb hm] at h
      obtain ⟨hd, hr⟩ := List.append_inj' h rfl
      have hq : n / b = m / b := ih _ (Nat.div_lt_self (by omega) hb) hd
      have hr : n % b = m % b :=
        digitChar_injective _ ((Nat.mod_lt _ (by omega)).trans_le hl) _
          ((Nat.mod_lt _ (by omega)).trans_le hl) (List.cons.inj hr).1
      rw [← Nat.div_add_mod n b, hq, hr, Nat.div_add_mod]

lemma notMem_toDigits {b : Nat} (hb : 1 < b) (hc : ∀ d < b, c ≠ Nat.digitChar d)
    (n : Nat) : c ∉ Nat.toDigits b n := by
  intro h
  obtain ⟨d, hd, he⟩ := mem_toDigits hb h
  exact hc d hd he

lemma writeInt_injective : writeInt.Injective := by
  intro i j h
  have hd (n : Nat) : '-' ∉ writeNat n := notMem_toDigits (by decide) (by decide) n
  unfold writeInt at h
  split at h <;> split at h
  · have := toDigits_injective (by decide) (by decide) (List.cons.inj h).2
    omega
  · exact absurd (h ▸ List.mem_cons_self) (hd _)
  · exact absurd (h ▸ List.mem_cons_self) (hd _)
  · have := toDigits_injective (by decide) (by decide) h
    omega

lemma notMem_writeInt (hm : c ≠ '-') (hc : ∀ d < 10, c ≠ Nat.digitChar d) (i : Int) :
    c ∉ writeInt i := by
  have hn := notMem_toDigits (by decide) hc i.natAbs
  unfold writeInt
  split
  · exact List.not_mem_cons_of_ne_of_not_mem hm hn
  · exact hn

/-! ### Quotes -/

def shortForms : List (Char × Char) :=
  [('\x00', '0'), ('\t', 't'), ('\r', 'r'), ('\n', 'n'), ('"', '"'), ('\\', '\\')]

/-- The forms that a character may take between quotes. -/
inductive Escapes (c : Char) : List Char → Prop where
  | plain (hq : c ≠ '"') (hb : c ≠ '\\') (hn : c ≠ '\n') : Escapes c [c]
  | short (e : Char) (h : (c, e) ∈ shortForms) : Escapes c ['\\', e]
  | code : Escapes c ('\\' :: 'u' :: '\x7b' :: (Nat.toDigits 16 c.toNat ++ ['\x7d']))

lemma escapes_escapeChar (c : Char) : Escapes c (escapeChar c) := by
  have short {d e : Char} (hc : c = d) (h : (d, e) ∈ shortForms) : Escapes c ['\\', e] :=
    .short e (hc ▸ h)
  unfold escapeChar
  split_ifs with h₀ ht hr hn hq hb hu
  · exact short h₀ (by simp [shortForms])
  · exact short ht (by simp [shortForms])
  · exact short hr (by simp [shortForms])
  · exact short hn (by simp [shortForms])
  · exact short hq (by simp [shortForms])
  · exact short hb (by simp [shortForms])
  · exact .code
  · exact .plain hq hb hn

lemma short_unique : ∀ p ∈ shortForms, ∀ q ∈ shortForms, p.2 = q.2 → p.1 = q.1 := by decide

lemma short_ne_code : ∀ p ∈ shortForms, p.2 ≠ 'u' := by decide

lemma short_ne_newline : ∀ p ∈ shortForms, p.2 ≠ '\n' := by decide

/-- No character is written as the beginning of what another one is written as. -/
lemma Escapes.unique (hc : Escapes c l) (hd : Escapes d m) (h : l ++ x = m ++ y) :
    c = d ∧ x = y := by
  cases hc with
  | plain _ hb _ =>
    cases hd with
    | plain => exact List.cons.inj h
    | short => exact absurd (List.cons.inj h).1 hb
    | code => exact absurd (List.cons.inj h).1 hb
  | short e he =>
    cases hd with
    | plain _ hb _ => exact absurd (List.cons.inj h).1.symm hb
    | short e' he' =>
      obtain ⟨hee, hxy⟩ := List.cons.inj (List.cons.inj h).2
      exact ⟨short_unique _ he _ he' hee, hxy⟩
    | code => exact absurd (List.cons.inj (List.cons.inj h).2).1 (short_ne_code _ he)
  | code =>
    cases hd with
    | plain _ hb _ => exact absurd (List.cons.inj h).1.symm hb
    | short e he => exact absurd (List.cons.inj (List.cons.inj h).2).1.symm (short_ne_code _ he)
    | code =>
      have hn := notMem_toDigits (b := 16) (c := '\x7d') (by decide) (by decide)
      simp only [List.cons_append, List.cons.injEq, true_and, List.append_assoc,
        List.nil_append] at h
      obtain ⟨he, hxy⟩ := eq_of_append_cons (hn c.toNat) (hn d.toNat) h
      exact ⟨Char.toNat_inj.1 (toDigits_injective (by decide) (by decide) he), hxy⟩

/-- The quote that closes a text is not taken for a part of it. -/
lemma Escapes.ne_quote (h : Escapes c l) : l ++ x ≠ '"' :: y := by
  intro he
  cases h with
  | plain hq _ _ => exact hq (List.cons.inj he).1
  | short => cases (List.cons.inj he).1
  | code => cases (List.cons.inj he).1

lemma Escapes.newline_notMem (h : Escapes c l) : '\n' ∉ l := by
  cases h with
  | plain _ _ hn => simpa using hn.symm
  | short e he => simpa using (short_ne_newline _ he).symm
  | code =>
    have hn := notMem_toDigits (b := 16) (c := '\n') (by decide) (by decide) c.toNat
    simp [hn]

lemma escape_unique {cs ds : List Char} (h : escape cs ++ '"' :: x = escape ds ++ '"' :: y) :
    cs = ds ∧ x = y := by
  induction cs generalizing ds with
  | nil =>
    cases ds with
    | nil => exact ⟨rfl, (List.cons.inj h).2⟩
    | cons d ds =>
      rw [escape_cons, List.append_assoc] at h
      exact absurd h.symm (escapes_escapeChar d).ne_quote
  | cons c cs ih =>
    cases ds with
    | nil =>
      rw [escape_cons, List.append_assoc] at h
      exact absurd h (escapes_escapeChar c).ne_quote
    | cons d ds =>
      rw [escape_cons, escape_cons, List.append_assoc, List.append_assoc] at h
      obtain ⟨rfl, hr⟩ := (escapes_escapeChar c).unique (escapes_escapeChar d) h
      obtain ⟨rfl, hxy⟩ := ih hr
      exact ⟨rfl, hxy⟩

lemma delimits_quote (s : String) : Delimits Set.univ (fun s => (quote s).toList) s := by
  intro t _ x y h
  simp only [toList_quote, List.cons_append, List.append_assoc, List.nil_append,
    List.cons.injEq, true_and] at h
  obtain ⟨he, hxy⟩ := escape_unique h
  exact ⟨String.toList_inj.1 he, hxy⟩

lemma newline_notMem_escape (cs : List Char) : '\n' ∉ escape cs := by
  intro h
  obtain ⟨c, -, hc⟩ := List.mem_flatMap.1 h
  exact (escapes_escapeChar c).newline_notMem hc

/-! ### Pairs and lists -/

lemma Delimits.pair {β : Type} {E : Set β} {g : β → List Char} {b : β} (ha : Delimits D f a)
    (hb : Delimits E g b) (sep : List Char) :
    Delimits {p : α × β | p.1 ∈ D ∧ p.2 ∈ E} (fun p => f p.1 ++ (sep ++ g p.2)) (a, b) := by
  rintro ⟨a', b'⟩ ⟨ha', hb'⟩ x y h
  simp only [List.append_assoc] at h
  obtain ⟨rfl, hr⟩ := ha ha' h
  obtain ⟨rfl, hxy⟩ := hb hb' (List.append_cancel_left hr)
  exact ⟨rfl, hxy⟩

/-- Each text behind a comma and a space, and the closing character at the end. -/
def closedRest (c : Char) : List (List Char) → List Char
  | [] => [c]
  | l :: ls => ',' :: ' ' :: (l ++ closedRest c ls)

/-- The texts with commas between them, up to the closing character. -/
def closed (c : Char) : List (List Char) → List Char
  | [] => [c]
  | l :: ls => l ++ closedRest c ls

lemma toList_joined (ss : List String) (c : Char) :
    (joined ss).toList ++ [c] = closed c (ss.map String.toList) := by
  cases ss with
  | nil => rfl
  | cons s ss =>
    rw [List.map_cons, closed]
    induction ss generalizing s with
    | nil => rfl
    | cons t ss ih =>
      rw [joined_cons_cons, List.map_cons, closedRest, ← ih]
      simp

lemma closedRest_unique (hc : c ≠ ',') {as bs : List α} (ha : ∀ a ∈ as, Delimits D f a)
    (hb : ∀ b ∈ bs, b ∈ D) (h : closedRest c (as.map f) ++ x = closedRest c (bs.map f) ++ y) :
    as = bs ∧ x = y := by
  induction as generalizing bs with
  | nil =>
    cases bs with
    | nil => exact ⟨rfl, (List.cons.inj h).2⟩
    | cons b bs => exact absurd (List.cons.inj h).1 hc
  | cons a as ih =>
    cases bs with
    | nil => exact absurd (List.cons.inj h).1.symm hc
    | cons b bs =>
      simp only [List.map_cons, closedRest, List.cons_append, List.cons.injEq, true_and,
        List.append_assoc] at h
      obtain ⟨rfl, hr⟩ := ha a List.mem_cons_self (hb b List.mem_cons_self) h
      obtain ⟨rfl, hxy⟩ := ih (fun a h => ha a (List.mem_cons_of_mem _ h))
        (fun b h => hb b (List.mem_cons_of_mem _ h)) hr
      exact ⟨rfl, hxy⟩

/-- A list ends where it is closed, if nothing in it begins with the closing character. -/
lemma delimits_closed (hc : c ≠ ',') (hD : ∀ a ∈ D, ∀ x y, f a ++ x ≠ c :: y) {as : List α}
    (hs : ∀ a ∈ as, a ∈ D) (ha : ∀ a ∈ as, Delimits D f a) :
    Delimits {bs : List α | ∀ b ∈ bs, b ∈ D} (fun as => closed c (as.map f)) as := by
  intro bs hb x y h
  cases as with
  | nil =>
    cases bs with
    | nil => exact ⟨rfl, (List.cons.inj h).2⟩
    | cons b bs =>
      simp only [List.map_cons, closed, List.append_assoc] at h
      exact absurd h.symm (hD b (hb b List.mem_cons_self) _ _)
  | cons a as =>
    cases bs with
    | nil =>
      simp only [List.map_cons, closed, List.append_assoc] at h
      exact absurd h (hD a (hs a List.mem_cons_self) _ _)
    | cons b bs =>
      simp only [List.map_cons, closed, List.append_assoc] at h
      obtain ⟨rfl, hr⟩ := ha a List.mem_cons_self (hb b List.mem_cons_self) h
      obtain ⟨rfl, hxy⟩ := closedRest_unique hc (fun a h => ha a (List.mem_cons_of_mem _ h))
        (fun b h => hb b (List.mem_cons_of_mem _ h)) hr
      exact ⟨rfl, hxy⟩

lemma notMem_closed (hc : d ≠ c) (hs : d ≠ ',' ∧ d ≠ ' ') {ls : List (List Char)}
    (h : ∀ l ∈ ls, d ∉ l) : d ∉ closed c ls := by
  have hr (ls : List (List Char)) (h : ∀ l ∈ ls, d ∉ l) : d ∉ closedRest c ls := by
    induction ls with
    | nil => simpa [closedRest] using hc
    | cons l ls ih =>
      simp only [closedRest, List.mem_cons, List.mem_append, not_or]
      exact ⟨hs.1, hs.2, h l List.mem_cons_self, ih fun m hm => h m (List.mem_cons_of_mem _ hm)⟩
  cases ls with
  | nil => simpa [closed] using hc
  | cons l ls =>
    rw [closed, List.mem_append, not_or]
    exact ⟨h l List.mem_cons_self, hr ls fun m hm => h m (List.mem_cons_of_mem _ hm)⟩

end ObjectModel.Text
