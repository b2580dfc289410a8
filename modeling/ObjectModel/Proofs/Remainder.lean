import Mathlib
import ObjectModel.Proofs.DistinctKeys
import ObjectModel.Proofs.RoundTrip.Toml

/-!
What readers leave of a text. Whatever a reader takes from the front, it leaves an end of the text,
and a line takes at least a character of it. So a document is read off line by line, up to its end
or up to a line that cannot be read. Main statement: `Toml.document?_eq_none`.
-/

namespace ObjectModel.Toml

/-- The reader leaves an end of what it reads. -/
def LeavesEnd {α : Type} (r : Reader α) : Prop := ∀ ⦃cs a rest⦄, r cs = some (a, rest) → rest <:+ cs

variable {α β : Type} {r r' : Reader α} {cs ds rest : List Char} {c : Char}

lemma LeavesEnd.map (h : LeavesEnd r) (f : α → β) :
    LeavesEnd fun cs => (r cs).map fun x => (f x.1, x.2) := by
  intro cs b rest hr
  obtain ⟨⟨a, ds⟩, ha, he⟩ := Option.map_eq_some_iff.1 hr
  cases he
  exact h ha

lemma LeavesEnd.or (h : LeavesEnd r) (h' : LeavesEnd r') :
    LeavesEnd fun cs => (r cs).or (r' cs) := by
  intro cs a rest hr
  rcases Option.or_eq_some_iff.1 hr with hr | ⟨-, hr⟩
  · exact h hr
  · exact h' hr

/-! ### Spaces and line ends -/

lemma skipSpaces_suffix (cs : List Char) : skipSpaces cs <:+ cs := List.dropWhile_suffix _

lemma skipComment_suffix (cs : List Char) : skipComment cs <:+ cs := by
  unfold skipComment
  split
  · exact (List.dropWhile_suffix _).trans (List.suffix_cons _ _)
  · exact List.suffix_rfl

lemma newline?_suffix (h : newline? cs = some rest) : rest <:+ cs := by
  unfold newline? at h
  split at h
  · cases h
    exact List.suffix_cons _ _
  · cases h
    exact (List.suffix_cons _ _).trans (List.suffix_cons _ _)
  · cases h

/-- Where a line ends in what is left of a text, something of the text has been taken: all of it, or
at least a newline. -/
lemma length_lineEnd?_lt (h : lineEnd? cs = some rest) (hs : cs <:+ ds) (hd : ds ≠ []) :
    rest.length < ds.length := by
  have hc := (skipComment_suffix (skipSpaces cs)).trans (skipSpaces_suffix cs)
  unfold lineEnd? at h
  split at h
  · cases h
    exact List.length_pos_iff.2 hd
  · exact (length_newline?_lt h).trans_le (hc.trans hs).length_le

lemma skipBlank_suffix (cs : List Char) : skipBlank cs <:+ cs := by
  fun_induction skipBlank cs with
  | case1 => exact List.suffix_rfl
  | case2 rest ih => exact ih.trans (List.suffix_cons _ _)
  | case3 rest ih => exact ih.trans ((List.suffix_cons _ _).trans (List.suffix_cons _ _))
  | case4 c rest _ _ _ ih => exact ih.trans (List.suffix_cons _ _)
  | case5 => exact List.suffix_rfl

lemma skipFiller_suffix (o : Bool) (cs : List Char) : skipFiller o cs <:+ cs := by
  fun_induction skipFiller o cs with
  | case1 => exact List.suffix_rfl
  | case2 o rest ih => exact ih.trans (List.suffix_cons _ _)
  | case3 o rest ih => exact ih.trans ((List.suffix_cons _ _).trans (List.suffix_cons _ _))
  | case4 c rest _ _ _ ih => exact ih.trans (List.suffix_cons _ _)
  | case5 => exact List.suffix_rfl
  | case6 c rest _ _ _ ih => exact ih.trans (List.suffix_cons _ _)
  | case7 rest _ _ _ ih => exact ih.trans (List.suffix_cons _ _)
  | case8 => exact List.suffix_rfl

lemma suffix_of_filler (h : skipFiller false cs = c :: rest) : rest <:+ cs :=
  (List.suffix_cons c rest).trans (h ▸ skipFiller_suffix false cs)

lemma after?_suffix {word : List Char} (h : after? word cs = some rest) : rest <:+ cs := by
  fun_induction after? word cs with
  | case1 =>
    cases h
    exact List.suffix_rfl
  | case2 word w cs ih => exact (ih h).trans (List.suffix_cons _ _)
  | case3 => cases h
  | case4 => cases h

lemma LeavesEnd.separated (h : LeavesEnd r) (sep : Char) : LeavesEnd (Toml.separated r sep) := by
  intro cs as rest hs
  fun_induction Toml.separated r sep cs generalizing as rest with
  | case1 => cases hs
  | case2 cs a hi =>
    cases hs
    exact h hi
  | case3 cs a rest' _ hi ih =>
    obtain ⟨⟨bs, ds⟩, hb, he⟩ := Option.map_eq_some_iff.1 hs
    cases he
    exact (ih hb).trans ((List.suffix_cons _ _).trans (h hi))
  | case4 => cases hs
  | case5 cs a c rest' hi =>
    cases hs
    exact h hi

/-! ### Strings -/

lemma leavesEnd_codePoint? (n : Nat) : LeavesEnd (codePoint? n) := by
  intro cs a rest h
  unfold codePoint? at h
  split at h
  · split at h
    · split at h
      · cases h
        exact List.drop_suffix _ _
      · cases h
    · cases h
  · cases h

lemma leavesEnd_escaped? : LeavesEnd escaped? := by
  intro cs a rest h
  cases cs with
  | nil => cases h
  | cons c ds =>
    have plain {e : Char} (h : some (e, ds) = some (a, rest)) : rest <:+ ds := by
      cases h
      exact List.suffix_rfl
    refine List.IsSuffix.trans ?_ (List.suffix_cons c ds)
    simp only [escaped?] at h
    split_ifs at h
    all_goals first
      | exact plain h
      | exact leavesEnd_codePoint? _ h

lemma suffix_of_map_cons {o : Option (List α × List Char)} {a : α} {as : List α}
    (ho : ∀ bs rest, o = some (bs, rest) → rest <:+ cs)
    (h : (o.map fun x => (a :: x.1, x.2)) = some (as, rest)) : rest <:+ cs := by
  obtain ⟨⟨bs, ds⟩, hb, he⟩ := Option.map_eq_some_iff.1 h
  cases he
  exact ho bs _ hb

lemma leavesEnd_lineBody (q : Quoting) : LeavesEnd (lineBody q) := by
  intro cs body rest h
  fun_induction lineBody q cs generalizing body rest with
  | case1 => cases h
  | case2 ds =>
    cases h
    exact List.suffix_cons _ _
  | case3 c ds _ _ ih =>
    exact suffix_of_map_cons (fun _ _ hb => (ih hb).trans (List.suffix_cons _ _)) h
  | case4 c ds _ _ _ e ds' he ih =>
    have hd := (leavesEnd_escaped? he).trans (List.suffix_cons c ds)
    exact suffix_of_map_cons (fun _ _ hb => (ih hb).trans hd) h
  | case5 => cases h
  | case6 => cases h

lemma joinedLine?_suffix (h : joinedLine? cs = some rest) : rest <:+ cs := by
  obtain ⟨ds, hd, rfl⟩ := Option.map_eq_some_iff.1 h
  exact (skipBlank_suffix ds).trans ((newline?_suffix hd).trans (skipSpaces_suffix cs))

lemma leavesEnd_blockBody (q : Quoting) : LeavesEnd (blockBody q) := by
  intro cs body rest h
  fun_induction blockBody q cs generalizing body rest with
  | case1 => cases h
  | case2 =>
    rename_i hrun
    simp only at h
    rw [if_pos hrun] at h
    cases h
    exact List.drop_suffix _ _
  | case3 =>
    rename_i hrun ih
    simp only at h
    rw [if_neg hrun] at h
    exact suffix_of_map_cons (fun _ _ hb => (ih hb).trans (List.suffix_cons _ _)) h
  | case4 c ds _ _ ih =>
    exact suffix_of_map_cons (fun _ _ hb => (ih hb).trans (List.suffix_cons _ _)) h
  | case5 c ds _ _ _ ds' hj ih =>
    exact (ih h).trans ((joinedLine?_suffix hj).trans (List.suffix_cons _ _))
  | case6 c ds _ _ _ _ e ds' he ih =>
    have hd := (leavesEnd_escaped? he).trans (List.suffix_cons c ds)
    exact suffix_of_map_cons (fun _ _ hb => (ih hb).trans hd) h
  | case7 => cases h
  | case8 c ds _ _ _ ds' hn ih =>
    exact suffix_of_map_cons (fun _ _ hb => (ih hb).trans (newline?_suffix hn)) h
  | case9 => cases h

lemma leavesEnd_lineString? : LeavesEnd lineString? := by
  intro cs s rest h
  cases cs with
  | nil => cases h
  | cons c ds =>
    obtain ⟨q, -, h⟩ := Option.bind_eq_some_iff.1 h
    obtain ⟨⟨body, rest'⟩, hb, h⟩ := Option.bind_eq_some_iff.1 h
    cases h
    exact (leavesEnd_lineBody q hb).trans (List.suffix_cons _ _)

lemma leavesEnd_string? : LeavesEnd string? := by
  intro cs s rest h
  unfold string? at h
  split at h
  · next a b c ds =>
    split at h
    · obtain ⟨q, -, h⟩ := Option.bind_eq_some_iff.1 h
      obtain ⟨⟨body, rest'⟩, hb, h⟩ := Option.bind_eq_some_iff.1 h
      cases h
      have hn : (newline? ds).getD ds <:+ ds := by
        cases hn : newline? ds with
        | none => exact List.suffix_rfl
        | some ds' => exact newline?_suffix hn
      have hd : ds <:+ a :: b :: c :: ds := List.suffix_append [a, b, c] ds
      exact (leavesEnd_blockBody q hb).trans (hn.trans hd)
    · exact leavesEnd_lineString? h
  · exact leavesEnd_lineString? h

/-! ### Numbers -/

lemma moreDigits_suffix (p : Char → Bool) (cs : List Char) : (moreDigits p cs).2 <:+ cs := by
  fun_induction moreDigits p cs with
  | case1 => exact List.suffix_rfl
  | case2 c ds _ _ ih => exact ih.trans ((List.suffix_cons _ _).trans (List.suffix_cons _ _))
  | case3 => exact List.suffix_rfl
  | case4 c ds _ _ _ ih => exact ih.trans (List.suffix_cons _ _)
  | case5 => exact List.suffix_rfl

lemma leavesEnd_digits? (p : Char → Bool) : LeavesEnd (digits? p) := by
  intro cs a rest h
  unfold digits? at h
  split at h
  · cases h
  · split at h
    · cases h
      exact (moreDigits_suffix p _).trans (List.suffix_cons _ _)
    · cases h

lemma leavesEnd_whole? : LeavesEnd whole? := by
  intro cs a rest h
  unfold whole? at h
  split at h
  · cases h
    exact List.suffix_cons _ _
  · exact leavesEnd_digits? _ h

lemma sign_suffix (cs : List Char) : (sign cs).2 <:+ cs := by
  unfold sign
  split
  · exact List.suffix_cons _ _
  · exact List.suffix_cons _ _
  · exact List.suffix_rfl

lemma leavesEnd_inBase? (base : Nat) : LeavesEnd (inBase? base) := by
  intro cs n rest h
  obtain ⟨⟨ds, rest'⟩, hd, h⟩ := Option.bind_eq_some_iff.1 h
  obtain ⟨m, -, h⟩ := Option.bind_eq_some_iff.1 h
  cases h
  exact leavesEnd_digits? _ hd

lemma leavesEnd_integer? : LeavesEnd integer? := by
  intro cs n rest h
  unfold integer? at h
  split at h
  · exact (leavesEnd_inBase? 16 h).trans ((List.suffix_cons _ _).trans (List.suffix_cons _ _))
  · exact (leavesEnd_inBase? 8 h).trans ((List.suffix_cons _ _).trans (List.suffix_cons _ _))
  · exact (leavesEnd_inBase? 2 h).trans ((List.suffix_cons _ _).trans (List.suffix_cons _ _))
  · obtain ⟨⟨ds, rest'⟩, hd, h⟩ := Option.bind_eq_some_iff.1 h
    obtain ⟨m, -, h⟩ := Option.bind_eq_some_iff.1 h
    cases h
    exact (leavesEnd_whole? hd).trans (sign_suffix _)

lemma leavesEnd_fraction? : LeavesEnd fraction? := by
  intro cs a rest h
  unfold fraction? at h
  split at h
  · exact (leavesEnd_digits? _ h).trans (List.suffix_cons _ _)
  · cases h

lemma leavesEnd_exponent? : LeavesEnd exponent? := by
  intro cs a rest h
  unfold exponent? at h
  split at h
  · cases h
  · split at h
    · obtain ⟨⟨ds, rest'⟩, hd, h⟩ := Option.bind_eq_some_iff.1 h
      cases h
      exact (leavesEnd_digits? _ hd).trans ((sign_suffix _).trans (List.suffix_cons _ _))
    · cases h

lemma leavesEnd_scale? : LeavesEnd scale? := by
  intro cs a rest h
  unfold scale? at h
  split at h
  · next hf =>
    have hf := leavesEnd_fraction? hf
    split at h
    · next he =>
      cases h
      exact (leavesEnd_exponent? he).trans hf
    · cases h
      exact hf
  · exact leavesEnd_exponent?.map (fun e => (([] : List Char), e)) h

lemma leavesEnd_finite? : LeavesEnd finite? := by
  intro cs a rest h
  obtain ⟨⟨ds, cs'⟩, hd, h⟩ := Option.bind_eq_some_iff.1 h
  obtain ⟨⟨⟨f, e⟩, rest'⟩, hs, h⟩ := Option.bind_eq_some_iff.1 h
  simp only at h
  split_ifs at h
  cases h
  exact (leavesEnd_scale? hs).trans ((leavesEnd_whole? hd).trans (sign_suffix _))

lemma leavesEnd_special? : LeavesEnd special? := by
  intro cs a rest h
  simp only [special?] at h
  split at h
  · next hi =>
    cases h
    exact (after?_suffix hi).trans (sign_suffix _)
  · obtain ⟨ds, hn, he⟩ := Option.map_eq_some_iff.1 h
    cases he
    exact (after?_suffix hn).trans (sign_suffix _)

/-! ### Dates and times -/

lemma leavesEnd_fixed? (n : Nat) : LeavesEnd (fixed? n) := by
  intro cs a rest h
  unfold fixed? at h
  split at h
  · cases h
    exact List.drop_suffix _ _
  · cases h

lemma leavesEnd_twoDigits? (lo hi : Nat) : LeavesEnd (twoDigits? lo hi) := by
  intro cs a rest h
  obtain ⟨⟨n, ds⟩, hn, h⟩ := Option.bind_eq_some_iff.1 h
  simp only at h
  split_ifs at h
  cases h
  exact leavesEnd_fixed? 2 hn

lemma leavesEnd_date? : LeavesEnd date? := by
  intro cs a rest h
  obtain ⟨⟨year, cs₁⟩, hy, h⟩ := Option.bind_eq_some_iff.1 h
  obtain ⟨cs₂, ha, h⟩ := Option.bind_eq_some_iff.1 h
  obtain ⟨⟨month, cs₃⟩, hm, h⟩ := Option.bind_eq_some_iff.1 h
  obtain ⟨cs₄, hb, h⟩ := Option.bind_eq_some_iff.1 h
  obtain ⟨⟨day, cs₅⟩, hd, h⟩ := Option.bind_eq_some_iff.1 h
  cases h
  have hm := (leavesEnd_twoDigits? _ _ hm).trans ((after?_suffix ha).trans (leavesEnd_fixed? 4 hy))
  exact (leavesEnd_twoDigits? _ _ hd).trans ((after?_suffix hb).trans hm)

lemma secondFraction_suffix (cs : List Char) : (secondFraction cs).2 <:+ cs := by
  unfold secondFraction
  split
  · next ds =>
    simp only
    split
    · exact List.suffix_rfl
    · exact (List.dropWhile_suffix _).trans (List.suffix_cons _ _)
  · exact List.suffix_rfl

lemma leavesEnd_time? : LeavesEnd time? := by
  intro cs a rest h
  obtain ⟨⟨hour, cs₁⟩, hh, h⟩ := Option.bind_eq_some_iff.1 h
  obtain ⟨cs₂, ha, h⟩ := Option.bind_eq_some_iff.1 h
  obtain ⟨⟨minute, cs₃⟩, hm, h⟩ := Option.bind_eq_some_iff.1 h
  obtain ⟨cs₄, hb, h⟩ := Option.bind_eq_some_iff.1 h
  obtain ⟨⟨second, cs₅⟩, hs, h⟩ := Option.bind_eq_some_iff.1 h
  cases h
  have hm := (leavesEnd_twoDigits? _ _ hm).trans
    ((after?_suffix ha).trans (leavesEnd_twoDigits? _ _ hh))
  have hs := (leavesEnd_twoDigits? _ _ hs).trans ((after?_suffix hb).trans hm)
  exact (secondFraction_suffix _).trans hs

lemma leavesEnd_offset? : LeavesEnd offset? := by
  intro cs a rest h
  unfold offset? at h
  split at h
  · cases h
  · next c ds =>
    split at h
    · cases h
      exact List.suffix_cons _ _
    · split at h
      · obtain ⟨⟨hour, cs₁⟩, hh, h⟩ := Option.bind_eq_some_iff.1 h
        obtain ⟨cs₂, ha, h⟩ := Option.bind_eq_some_iff.1 h
        obtain ⟨⟨minute, cs₃⟩, hm, h⟩ := Option.bind_eq_some_iff.1 h
        cases h
        have hh := (leavesEnd_twoDigits? _ _ hh).trans (List.suffix_cons c ds)
        exact (leavesEnd_twoDigits? _ _ hm).trans ((after?_suffix ha).trans hh)
      · cases h

lemma leavesEnd_timeOfDate? : LeavesEnd timeOfDate? := by
  intro cs a rest h
  unfold timeOfDate? at h
  split at h
  · cases h
  · next c ds =>
    split at h
    · obtain ⟨⟨t, cs₁⟩, ht, h⟩ := Option.bind_eq_some_iff.1 h
      have ht := (leavesEnd_time? ht).trans (List.suffix_cons c ds)
      simp only at h
      split at h
      · next ho =>
        cases h
        exact (leavesEnd_offset? ho).trans ht
      · cases h
        exact ht
    · cases h

lemma leavesEnd_dateTime? : LeavesEnd dateTime? := by
  intro cs a rest h
  unfold dateTime? at h
  split at h
  · next hd =>
    have hd := leavesEnd_date? hd
    split at h
    · next ht =>
      cases h
      exact (leavesEnd_timeOfDate? ht).trans hd
    · cases h
      exact hd
  · exact leavesEnd_time?.map DateTime.time h

/-! ### Keys and values -/

lemma leavesEnd_bareKey? : LeavesEnd bareKey? := by
  intro cs a rest h
  unfold bareKey? at h
  simp only at h
  split at h
  · cases h
  · cases h
    exact List.dropWhile_suffix _

lemma leavesEnd_keyPart? : LeavesEnd keyPart? := by
  intro cs a rest h
  obtain ⟨⟨s, ds⟩, hs, he⟩ := Option.map_eq_some_iff.1 h
  cases he
  have hd := (leavesEnd_lineString?.or leavesEnd_bareKey?) hs
  exact (skipSpaces_suffix ds).trans (hd.trans (skipSpaces_suffix cs))

lemma leavesEnd_key? : LeavesEnd key? := by
  intro cs a rest h
  obtain ⟨⟨parts, ds⟩, hp, h⟩ := Option.bind_eq_some_iff.1 h
  obtain ⟨k, -, h⟩ := Option.bind_eq_some_iff.1 h
  cases h
  exact leavesEnd_keyPart?.separated '.' hp

lemma leavesEnd_scalar? : LeavesEnd scalar? := by
  intro cs a rest h
  unfold scalar? at h
  split at h
  · next hs =>
    cases h
    exact leavesEnd_string? hs
  · split at h
    · next ht =>
      cases h
      exact after?_suffix ht
    · next hf _ =>
      cases h
      exact after?_suffix hf
    · split at h
      · next hd =>
        cases h
        exact leavesEnd_dateTime? hd
      · next hr =>
        cases h
        exact (leavesEnd_finite?.or leavesEnd_special?) hr
      · exact leavesEnd_integer?.map Value.integer h

lemma LeavesEnd.arrayItems {item : Reader Value} (h : LeavesEnd item) :
    LeavesEnd (Toml.arrayItems item) := by
  intro cs vs rest hs
  fun_induction Toml.arrayItems item cs generalizing vs rest with
  | case1 cs rest' hf =>
    cases hs
    exact suffix_of_filler hf
  | case2 => cases hs
  | case3 cs v rest' end' he _ hi =>
    cases hs
    exact (suffix_of_filler he).trans ((h hi).trans (skipFiller_suffix false cs))
  | case4 cs v rest' more hm _ _ hi ih =>
    have hd := (suffix_of_filler hm).trans ((h hi).trans (skipFiller_suffix false cs))
    exact suffix_of_map_cons (fun _ _ hb => (ih hb).trans hd) hs
  | case5 => cases hs
  | case6 => cases hs

lemma LeavesEnd.pair? {item : Reader Value} (h : LeavesEnd item) : LeavesEnd (Toml.pair? item) := by
  intro cs p rest hp
  obtain ⟨⟨k, cs₁⟩, hk, hp⟩ := Option.bind_eq_some_iff.1 hp
  obtain ⟨cs₂, ha, hp⟩ := Option.bind_eq_some_iff.1 hp
  obtain ⟨⟨v, cs₃⟩, hv, hp⟩ := Option.bind_eq_some_iff.1 hp
  cases hp
  have ha := (after?_suffix ha).trans (leavesEnd_key? hk)
  exact (h hv).trans ((skipSpaces_suffix cs₂).trans ha)

lemma LeavesEnd.inlineTable {item : Reader Value} (h : LeavesEnd item) :
    LeavesEnd (Toml.inlineTable item) := by
  have hs : LeavesEnd fun cs => (Toml.pair? item cs).map fun r => (r.1, skipSpaces r.2) := by
    intro cs p rest hp
    obtain ⟨⟨q, ds⟩, hq, he⟩ := Option.map_eq_some_iff.1 hp
    cases he
    exact (skipSpaces_suffix ds).trans (h.pair? hq)
  intro cs v rest hv
  unfold Toml.inlineTable at hv
  split at hv
  · next ha =>
    cases hv
    exact (after?_suffix ha).trans (skipSpaces_suffix cs)
  · obtain ⟨⟨pairs, cs₁⟩, hp, hv⟩ := Option.bind_eq_some_iff.1 hv
    obtain ⟨cs₂, ha, hv⟩ := Option.bind_eq_some_iff.1 hv
    obtain ⟨ms, -, hv⟩ := Option.bind_eq_some_iff.1 hv
    cases hv
    exact (after?_suffix ha).trans (hs.separated ',' hp)

lemma leavesEnd_value? (depth : Nat) : LeavesEnd (value? depth) := by
  induction depth with
  | zero => exact leavesEnd_scalar?
  | succ depth ih =>
    intro cs v rest h
    unfold value? at h
    split at h
    · next ha => exact (ih.arrayItems.map Value.array h).trans (after?_suffix ha)
    · next ha _ => exact (ih.inlineTable h).trans (after?_suffix ha)
    · exact leavesEnd_scalar? h

/-! ### Lines -/

lemma length_line?_lt {o : Option Statement} (h : line? cs = some (o, rest)) (hc : cs ≠ []) :
    rest.length < cs.length := by
  have hs := skipSpaces_suffix cs
  -- Both kinds of headers: brackets are dropped in front, a key is read, and brackets behind it.
  have header {n : Nat} {ks : List Char} {k : Key} {ds ds' : List Char} {word : List Char}
      (hn : ks = (skipSpaces cs).drop n) (hk : key? ks = some (k, ds))
      (ha : after? word ds = some ds') : ds' <:+ cs :=
    (after?_suffix ha).trans ((leavesEnd_key? hk).trans (hn ▸ (List.drop_suffix n _).trans hs))
  unfold line? at h
  split at h
  · next more he =>
    obtain ⟨⟨k, cs₁⟩, hk, h⟩ := Option.bind_eq_some_iff.1 h
    obtain ⟨cs₂, ha, h⟩ := Option.bind_eq_some_iff.1 h
    obtain ⟨cs₃, hl, h⟩ := Option.bind_eq_some_iff.1 h
    cases h
    have hn : more = (skipSpaces cs).drop 2 := by rw [he]; rfl
    exact length_lineEnd?_lt hl (header hn hk ha) hc
  · next more _ he =>
    obtain ⟨⟨k, cs₁⟩, hk, h⟩ := Option.bind_eq_some_iff.1 h
    obtain ⟨cs₂, ha, h⟩ := Option.bind_eq_some_iff.1 h
    obtain ⟨cs₃, hl, h⟩ := Option.bind_eq_some_iff.1 h
    cases h
    have hn : more = (skipSpaces cs).drop 1 := by rw [he]; rfl
    exact length_lineEnd?_lt hl (header hn hk ha) hc
  · split at h
    · next hl =>
      cases h
      exact length_lineEnd?_lt hl hs hc
    · obtain ⟨⟨⟨k, v⟩, cs₁⟩, hp, h⟩ := Option.bind_eq_some_iff.1 h
      obtain ⟨cs₂, hl, h⟩ := Option.bind_eq_some_iff.1 h
      cases h
      exact length_lineEnd?_lt hl (((leavesEnd_value? _).pair? hp).trans hs) hc

/-! ### Statements -/

/-- Lines that can be read, with the statements they make and the text behind them. -/
inductive Reads : List Char → List Statement → List Char → Prop where
  | nothing (cs : List Char) : Reads cs [] cs
  | line {cs mid rest : List Char} {o : Option Statement} {ss : List Statement} (hc : cs ≠ [])
      (h : line? cs = some (o, mid)) (more : Reads mid ss rest) : Reads cs (o.toList ++ ss) rest

lemma statements?_line {o : Option Statement} (hc : cs ≠ []) (h : line? cs = some (o, rest)) :
    statements? cs = (statements? rest).map (o.toList ++ ·) := by
  cases cs with
  | nil => exact absurd rfl hc
  | cons c more =>
    have hl : rest.length ≤ more.length := Nat.le_of_lt_succ (length_line?_lt h hc)
    rw [statements?]
    split
    · next hn => cases hn.symm.trans h
    · next hs =>
      cases hs.symm.trans h
      rw [dif_pos hl]

lemma statements?_of_line?_none (hc : cs ≠ []) (h : line? cs = none) : statements? cs = none := by
  cases cs with
  | nil => exact absurd rfl hc
  | cons c more =>
    rw [statements?]
    split
    · rfl
    · next hs => cases hs.symm.trans h

lemma Reads.statements? {ss : List Statement} (h : Reads cs ss rest) :
    Toml.statements? cs = (Toml.statements? rest).map (ss ++ ·) := by
  induction h with
  | nothing cs => simp
  | line hc h more ih =>
    rw [statements?_line hc h, ih, Option.map_map]
    simp only [Function.comp_def, List.append_assoc]

/-- A text is read line by line to its end, or to a line that cannot be read. -/
lemma reads_all_or_stuck (cs : List Char) :
    ∃ ss rest, Reads cs ss rest ∧ (rest = [] ∨ line? rest = none) := by
  by_cases hc : cs = []
  · exact ⟨[], cs, .nothing cs, .inl hc⟩
  · cases hl : line? cs with
    | none => exact ⟨[], cs, .nothing cs, .inr hl⟩
    | some r =>
      have := length_line?_lt hl hc
      obtain ⟨ss, rest, hr, he⟩ := reads_all_or_stuck r.2
      exact ⟨_, rest, .line hc hl hr, he⟩
termination_by cs.length

/-! ### Documents -/

/-- Statements that do not all go together: up to one of them they do, and it clashes with those. -/
lemma run_eq_none {ss : List Statement} {a : Assembly} : a.run ss = none ↔
    ∃ before s after b, ss = before ++ s :: after ∧ a.run before = some b ∧ b.step s = none := by
  constructor
  · intro h
    induction ss generalizing a with
    | nil => cases h
    | cons s ss ih =>
      cases hs : a.step s with
      | none => exact ⟨[], s, ss, a, rfl, rfl, hs⟩
      | some b =>
        rw [Assembly.run, List.foldlM_cons, hs] at h
        obtain ⟨before, t, after, d, rfl, hb, ht⟩ := ih h
        refine ⟨s :: before, t, after, d, rfl, ?_, ht⟩
        rw [Assembly.run, List.foldlM_cons, hs]
        exact hb
  · rintro ⟨before, s, after, b, rfl, hb, hs⟩
    rw [Assembly.run] at hb ⊢
    rw [List.foldlM_append, hb]
    simp [hs]

/-- What is wrong with a text: behind lines that can be read stands one that cannot, or behind
statements that go together one that clashes with them. -/
inductive Malformed (text : String) : Prop where
  | line {ss : List Statement} {rest : List Char} (h : Reads (skipMark text.toList) ss rest)
      (hl : line? rest = none)
  | clash {before after : List Statement} {s : Statement} {a : Assembly} {rest : List Char}
      (h : Reads (skipMark text.toList) (before ++ s :: after) rest)
      (ha : Assembly.start.run before = some a) (hs : a.step s = none)

lemma ne_nil_of_line?_none (h : line? cs = none) : cs ≠ [] := by
  rintro rfl
  cases h

lemma document?_eq (text : String) : document? text =
    ((statements? (skipMark text.toList)).bind Assembly.start.run).map (finishMembers ·.root) := by
  unfold document?
  cases statements? (skipMark text.toList) with
  | none => rfl
  | some ss =>
    change (Assembly.start.run ss).bind _ = (Assembly.start.run ss).map _
    cases Assembly.start.run ss <;> rfl

lemma document?_eq_none {text : String} : document? text = none ↔ Malformed text := by
  rw [document?_eq, Option.map_eq_none_iff]
  constructor
  · intro h
    obtain ⟨ss, rest, hr, rfl | hl⟩ := reads_all_or_stuck (skipMark text.toList)
    · rw [hr.statements?, statements?, Option.map_some, List.append_nil] at h
      obtain ⟨before, s, after, a, rfl, ha, hs⟩ := run_eq_none.1 h
      exact .clash hr ha hs
    · exact .line hr hl
  -- Whatever stands behind the fault is not looked at.
  · rintro (⟨hr, hl⟩ | @⟨before, after, s, a, rest, hr, ha, hs⟩)
    · rw [hr.statements?, statements?_of_line?_none (ne_nil_of_line?_none hl) hl]
      rfl
    · rw [hr.statements?]
      cases statements? rest with
      | none => rfl
      | some more =>
        rw [Option.map_some, Option.bind_some, List.append_assoc, List.cons_append]
        exact run_eq_none.2 ⟨before, s, after ++ more, a, rfl, ha, hs⟩

end ObjectModel.Toml
