import Mathlib
import ObjectModel.Proofs.Binding
import ObjectModel.Proofs.Conversion
import ObjectModel.Proofs.KeyedLookup

/-!
One sequence of pairs as an object, as a map under keys that are strings and as a map of the host.
Their keys are of three types, but related one to one, so from the first insertion on the three have
the same entries in the same order. Their values are of two: those of the host are converted when
the object and the map are made, and again whenever the map of the host is enumerated. Main
statement: `Record.uniformity`.
-/

namespace ObjectModel

open List (Forall₂)
open Relator
open Script

lemma MapKey.str_injective : Function.Injective (MapKey.str (κ := Keyword)) :=
  fun _ _ h => MapKey.str.inj h

namespace Record

/-! ### An object and a map -/

/-- The entries of a record are its keys beside its values. -/
lemma zip_eq {κ ν : Type} [ToValue κ] [ToValue ν] (es : List (κ × ν)) :
    (keys es).zip (values es) = es.map (Prod.map ToValue.toValue ToValue.toValue) :=
  List.zip_map'

/-- The members of an object are the entries of a map under strings, for whoever enumerates them and
for whoever asks for one, if their values are taken for the same where they are related. -/
structure Uniform (R : Value → Value → Prop) (members : List (String × Value))
    (entries : List (MapKey Keyword × Value)) : Prop where
  keys_eq : keys entries = keys members
  values_rel : Forall₂ R (values members) (values entries)
  object_enumerates (i : Ident) :
    (Value.object i members).Enumerates ((keys members).zip (values members))
  map_enumerates (i : Ident) :
    (Value.map i entries).Enumerates ((keys members).zip (values entries))
  has_eq (i : Ident) (s : String) (p : Process) :
    ∃ f q, (Value.map i entries).member (.name "has") p = .ok (.function f) q ∧
      ∀ depth more p', f.call (depth + 1) (.str s :: more) p' =
        .ok (.bool (Entries.contains s members)) p'
  get_rel (i : Ident) (s : String) (p : Process) :
    ∃ f q v, (Value.map i entries).member (.name "get") p = .ok (.function f) q ∧
      (∀ depth more p', f.call (depth + 1) (.str s :: more) p' = .ok v p') ∧
      R ((Entries.get? s members).getD .nil) v
  member_eq (i : Ident) (s : String) (p : Process) :
    ∃ q, (Value.object i members).member (.name s) p =
      .ok (((Entries.get? s members).getD .nil).asRead (.object i members) p.next) q

/-- Keys that are given others one to one stay distinct. -/
lemma distinct_of_forall₂ {κ ν μ : Type} {key : String → κ} (hkey : Function.Injective key)
    {R : ν → μ → Prop} {es : List (String × ν)} {fs : List (κ × μ)} (hd : Entries.Distinct es)
    (h : Forall₂ (Pair.Rel (fun s k => key s = k) R) es fs) : Entries.Distinct fs := by
  have hk : (Entries.keys es).map key = (Entries.keys fs).map id :=
    map_eq_of_forall₂ (fun _ _ => id) (Entries.rel_keys h)
  rw [List.map_id] at hk
  rw [Entries.Distinct, ← hk]
  exact hd.map hkey

section Uniform

variable {R : Value → Value → Prop} {members : List (String × Value)}
  {entries : List (MapKey Keyword × Value)}

lemma uniform_of_forall₂ (hd : Entries.Distinct members) (hR : R .nil .nil)
    (h : Forall₂ (Pair.Rel (fun s k => MapKey.str s = k) R) members entries) :
    Uniform R members entries := by
  have hb : BiUnique fun s k => MapKey.str (κ := Keyword) s = k :=
    biUnique_graph MapKey.str_injective
  have hk : keys entries = keys members :=
    (map_eq_of_forall₂ (fun _ _ ⟨he, _⟩ => congrArg MapKey.toValue he) h).symm
  refine ⟨hk, Entries.rel_values h, fun i => ?_, fun i => ?_, fun i s p => ?_, fun i s p => ?_,
    fun i s p => Value.member_object i members s p⟩
  · rw [zip_eq]
    exact (Value.Presents.object i members).enumerates (Value.pairwise_memberPairs hd)
  · rw [← hk, zip_eq]
    exact (Value.Presents.map i entries).enumerates
      (Value.pairwise_entryPairs (distinct_of_forall₂ MapKey.str_injective hd h))
  · obtain ⟨f, q, hf, hc⟩ := Value.has_slot i entries p
    refine ⟨f, q, hf, fun depth more p' => ?_⟩
    rw [hc, Entries.rel_contains hb rfl h]
    rfl
  · obtain ⟨f, q, hf, hc⟩ := Value.get_slot i entries p
    refine ⟨f, q, (Entries.get? (.str s) entries).getD .nil, hf, fun depth more p' => hc depth _ p',
      ?_⟩
    have hg := Entries.rel_get? hb (k := s) rfl h
    generalize Entries.get? s members = a, Entries.get? (MapKey.str s) entries = b at hg ⊢
    cases hg with
    | none => exact hR
    | some hv => exact hv

end Uniform

/-! ### Three records -/

variable {ν : Type} [IntoValue ν] {pairs : List (String × ν)} {ks us vs : List Value}
  {S T : Set Ident}

/-- A way to enumerate pairs: through an object that is made from them, through a map, or through
a map of the host. It gives keys and values, for which it has drawn identities from the set. -/
inductive Enumerated (pairs : List (String × ν)) :
    List Value → List Value → Set Ident → Prop where
  | object {ε : Type} {p q : Process} {members : List (String × Value)}
      (h : (objectFrom pairs : Act ε _) p = .ok members q) :
      Enumerated pairs (keys members) (values members) (p.between q)
  | map {ε : Type} {p q : Process} {entries : List (MapKey Keyword × Value)}
      (h : (mapFrom pairs : Act ε _) p = .ok entries q) :
      Enumerated pairs (keys entries) (values entries) (p.between q)
  | host {ε : Type} {p p' q q' : Process} {ks us : List Value}
      (hk : (HostMap.keys (Entries.ofList pairs) : Act ε _) p = .ok ks p')
      (hv : (HostMap.values (Entries.ofList pairs) : Act ε _) q = .ok us q') :
      Enumerated pairs ks us (q.between q')
  /-- A map of the host gives one value after the other, and anything may be done in between. -/
  | hostInSteps {ε : Type} {p p' : Process} {ks us : List Value} {S : Set Ident}
      (hk : (HostMap.keys (Entries.ofList pairs) : Act ε _) p = .ok ks p')
      (hv : Forall₂ (fun a v => ∃ q q', (IntoValue.into a : Act ε Value) q = .ok v q' ∧
        q.between q' ⊆ S) (Entries.values (Entries.ofList pairs)) us) :
      Enumerated pairs ks us S

/-- The pairs are the same record in every way to enumerate them and whenever that is, with values
that are the same in the sense of `Same`. -/
structure UniformBy (Same : Set Ident → Set Ident → Value → Value → Prop)
    (pairs : List (String × ν)) : Prop where
  enumerated {ks us : List Value} {S : Set Ident} {ks' us' : List Value} {T : Set Ident} :
    Enumerated pairs ks us S → Enumerated pairs ks' us' T → ks = ks' ∧ Forall₂ (Same S T) us us'
  records {ε : Type} {p p' q q' : Process} {members : List (String × Value)}
    {entries : List (MapKey Keyword × Value)} :
    (objectFrom pairs : Act ε _) p = .ok members p' →
    (mapFrom pairs : Act ε _) q = .ok entries q' →
    Uniform (Same (p.between p') (q.between q')) members entries

lemma forall₂_of_insertEach {ε κ : Type} [DecidableEq κ] {key : String → κ} {p q : Process}
    {es : List (κ × Value)} (hkey : Function.Injective key)
    (h : (insertEach key [] pairs : Act ε _) p = .ok es q) :
    Forall₂ (Pair.Rel (fun s k => key s = k) fun a v => (IntoValue.draft a).Makes (p.between q) v)
      (Entries.ofList pairs) es := by
  obtain ⟨fs, hfs, hr⟩ := insertEach_apply (ε := ε) hkey pairs p
  cases hfs.symm.trans h
  exact hr

/-- Whichever way the pairs are enumerated, there are the keys of a map of the host and what is made
of its values. -/
lemma Enumerated.makes (h : Enumerated pairs ks us S) :
    ks = (Entries.keys (Entries.ofList pairs)).map .str ∧
      Forall₂ (fun a v => (IntoValue.draft a).Makes S v) (Entries.values (Entries.ofList pairs))
        us := by
  have hk {κ : Type} [ToValue κ] {key : String → κ} {R : ν → Value → Prop} {es : List (κ × Value)}
      (hkey : ∀ s, ToValue.toValue (key s) = .str s)
      (h : Forall₂ (Pair.Rel (fun s k => key s = k) R) (Entries.ofList pairs) es) :
      keys es = (Entries.keys (Entries.ofList pairs)).map .str := by
    refine ((List.map_map ..).trans (map_eq_of_forall₂ (fun _ _ he => ?_) h)).symm
    obtain ⟨rfl, -⟩ := he
    exact (hkey _).symm
  have hs {ε : Type} {p p' : Process} {ks : List Value}
      (h : (HostMap.keys (Entries.ofList pairs) : Act ε _) p = .ok ks p') :
      ks = (Entries.keys (Entries.ofList pairs)).map .str := by
    rw [HostMap.keys, intoAll_of_held fun _ => rfl] at h
    cases h
    rfl
  cases h with
  | object h =>
    have hr := forall₂_of_insertEach Function.injective_id h
    exact ⟨hk (fun _ => rfl) hr, Entries.rel_values hr⟩
  | map h =>
    have hr := forall₂_of_insertEach MapKey.str_injective h
    exact ⟨hk (fun _ => rfl) hr, Entries.rel_values hr⟩
  | @host ε _ _ q _ _ _ hks hus =>
    obtain ⟨vs, hvs, hr⟩ := intoAll_apply (ε := ε) (Entries.values (Entries.ofList pairs)) q
    cases hvs.symm.trans hus
    exact ⟨hs hks, hr⟩
  | hostInSteps hks hus =>
    exact ⟨hs hks, hus.imp fun a v ⟨q, q', hv, hS⟩ => (makes_of_into hv).mono hS⟩

lemma uniformBy {Same : Set Ident → Set Ident → Value → Value → Prop}
    (hnil : ∀ S T, Same S T .nil .nil)
    (hs : ∀ a ∈ Entries.values pairs, ∀ S T v u, (IntoValue.draft a).Makes S v →
      (IntoValue.draft a).Makes T u → Same S T v u) : UniformBy Same pairs where
  enumerated h h' := by
    obtain ⟨hk, hr⟩ := h.makes
    obtain ⟨hk', hr'⟩ := h'.makes
    refine ⟨hk.trans hk'.symm, (forall₂_join hr hr').imp fun v u ⟨a, ha, hv, hu⟩ => ?_⟩
    exact hs a (Entries.mem_values_ofList ha) _ _ v u hv hu
  records h h' := by
    have hm := forall₂_of_insertEach Function.injective_id h
    have he := forall₂_of_insertEach MapKey.str_injective h'
    refine uniform_of_forall₂
      (distinct_of_forall₂ Function.injective_id (Entries.distinct_ofList pairs) hm) (hnil _ _)
      ((forall₂_join hm he).imp fun e f ⟨d, hd, hv, hu⟩ => ?_)
    obtain ⟨rfl, hv⟩ := hv
    obtain ⟨rfl, hu⟩ := hu
    have ha := Entries.mem_values_ofList (List.mem_map_of_mem hd)
    exact .mk rfl (hs _ ha _ _ _ _ hv hu)

end Record

namespace Script.Expr

variable {regs : Registers}

/-- The same members as the entries of a map, under keys that are strings. -/
def underStrings (es : List (String × Expr)) : List (Expr × Expr) := es.map (Prod.map .str id)

lemma evalEntries_underStrings {es : List (String × Expr)} {ms : List (String × Value)}
    {p q : Process} (h : evalMembers regs es p = .ok ms q) :
    evalEntries regs (underStrings es) p = .ok (ms.map (Prod.map .str id)) q := by
  induction es generalizing p ms with
  | nil =>
    cases h
    rfl
  | cons e es ih =>
    obtain ⟨k, e⟩ := e
    obtain ⟨v, p', hv, h⟩ := Act.bind_eq_ok.1 h
    obtain ⟨vs, q', hvs, h⟩ := Act.bind_eq_ok.1 h
    cases h
    exact Act.bind_eq_ok.2 ⟨.str k, p, rfl, Act.bind_eq_ok.2 ⟨.str k, p, rfl,
      Act.bind_eq_ok.2 ⟨v, p', hv, Act.bind_eq_ok.2 ⟨_, q, ih hvs, rfl⟩⟩⟩⟩

end Script.Expr

namespace Record

variable {ν : Type} [IntoValue ν]

/-- **Uniformity.** The host's values may be any that convert by making drafts: what is a value
already, options, functions, and aggregates to any depth. An object, a map under strings and a map
of the host that are made from the same pairs are the same record, enumerated in any way and at any
time, asked for a key and read by name. Their values are the same, and look the same, but for the
identities that converting has drawn; where it draws none, they are equal. The object and the map
that a script makes from one list of members are made so, from values. -/
theorem uniformity {ε : Type} (pairs : List (String × ν)) :
    (∀ p : Process, (∃ members q, (objectFrom pairs : Act ε _) p = .ok members q) ∧
      (∃ entries q, (mapFrom pairs : Act ε _) p = .ok entries q) ∧
      (∃ ks, (HostMap.keys (Entries.ofList pairs) : Act ε _) p = .ok ks p) ∧
      ∃ us q, (HostMap.values (Entries.ofList pairs) : Act ε _) p = .ok us q) ∧
    UniformBy Value.SameBut pairs ∧
    (∀ ks us S ks' us' T, Enumerated pairs ks us S → Enumerated pairs ks' us' T →
      ∀ names, Value.shapes names us = Value.shapes names us') ∧
    ((∀ a ∈ Entries.values pairs, (IntoValue.draft a).draws = 0) →
      UniformBy (fun _ _ => Eq) pairs) ∧
    (∀ [ToValue ν], (∀ a : ν, IntoValue.draft a = .held (ToValue.toValue a)) →
      (HostMap.keys (Entries.ofList pairs) : Act ε _) = pure (keys (Entries.ofList pairs)) ∧
      (HostMap.values (Entries.ofList pairs) : Act ε _) = pure (values (Entries.ofList pairs))) ∧
    (∀ regs es p vs q, Expr.evalMembers regs es p = .ok vs q → ∃ members entries,
      (objectFrom vs : Act ε _) q = .ok members q ∧ (mapFrom vs : Act ε _) q = .ok entries q ∧
      (Expr.object es).eval regs p = .ok (.object q.next members) q.fresh.2 ∧
      (Expr.map (Expr.underStrings es)).eval regs p = .ok (.map q.next entries) q.fresh.2) := by
  have hu : UniformBy Value.SameBut pairs :=
    uniformBy (fun S T => .refl S T .nil) fun a _ _ _ _ _ hv hu => ⟨IntoValue.draft a, hv, hu⟩
  refine ⟨fun p => ⟨?_, ?_, ?_, ?_⟩, hu, fun _ _ _ _ _ _ h h' names => ?_, fun h0 => ?_,
    fun hp => ⟨?_, ?_⟩, fun regs es p vs q h => ?_⟩
  · obtain ⟨members, hm, -⟩ := insertEach_apply Function.injective_id pairs p
    exact ⟨members, _, hm⟩
  · obtain ⟨entries, he, -⟩ := insertEach_apply MapKey.str_injective pairs p
    exact ⟨entries, _, he⟩
  · rw [HostMap.keys, intoAll_of_held fun _ => rfl]
    exact ⟨_, rfl⟩
  · obtain ⟨us, hus, -⟩ := intoAll_apply (Entries.values (Entries.ofList pairs)) p
    exact ⟨us, _, hus⟩
  · rw [Value.shapes_eq_map, Value.shapes_eq_map]
    exact map_eq_of_forall₂ (fun _ _ hv => hv.shape_eq names) (hu.enumerated h h').2
  · exact uniformBy (fun _ _ => rfl) fun a ha _ _ _ _ hv hu => hv.eq_of_draws hu (h0 a ha)
  · rw [HostMap.keys, intoAll_of_held fun _ => rfl, Entries.keys, List.map_map]
    rfl
  · rw [HostMap.values, intoAll_of_held hp, Entries.values, List.map_map]
    rfl
  · refine ⟨_, _, ?_, ?_, Expr.eval_object_ofList h,
      Expr.eval_map_ofList (Expr.evalEntries_underStrings h)⟩
    · rw [objectFrom, insertEach_values, Prod.map_id, List.map_id]
      rfl
    · rw [mapFrom, insertEach_values]
      rfl

/-- A key that is given twice: its lists are new each time, so no two of them are equal, and its
options always are. -/
theorem uniformity_of_lists_and_options :
    let lists : List (String × List Value) := [("a", []), ("b", [.nil]), ("a", [.null])]
    let options : List (String × Option Int64) := [("a", none), ("b", none), ("a", some 1)]
    let es : List (String × Expr) := [("a", .list []), ("a", .int 1)]
    let p := Process.initial
    let q := p.given 3
    let r := q.given 2
    (objectFrom lists : Act Fault _) p = .ok [("a", .list 2 [.null]), ("b", .list 1 [.nil])] q ∧
    (HostMap.values (Entries.ofList lists) : Act Fault _) q =
      .ok [.list 3 [.null], .list 4 [.nil]] r ∧
    Forall₂ (Value.SameBut (p.between q) (q.between r))
      [.list 2 [.null], .list 1 [.nil]] [.list 3 [.null], .list 4 [.nil]] ∧
    (Value.list 2 [.null] == Value.list 3 [.null]) = false ∧
    UniformBy (fun _ _ => Eq) options ∧
    (HostMap.values (Entries.ofList options) : Act Fault _) p = .ok [.int 1, .null] p ∧
    (Expr.object es).eval [] p = .ok (.object 1 [("a", .int 1)]) (p.given 2) := by
  intro lists options es p q r
  have hm : (objectFrom lists : Act Fault _) p =
      .ok [("a", .list 2 [.null]), ("b", .list 1 [.nil])] q := rfl
  have hk : (HostMap.keys (Entries.ofList lists) : Act Fault _) q =
      .ok [.str "a", .str "b"] q := rfl
  have hv : (HostMap.values (Entries.ofList lists) : Act Fault _) q =
      .ok [.list 3 [.null], .list 4 [.nil]] r := rfl
  have he : Expr.evalMembers [] es p = .ok [("a", .list 0 []), ("a", .int 1)] (p.given 1) := rfl
  obtain ⟨-, hl, -, -, -, hs⟩ := uniformity (ε := Fault) lists
  obtain ⟨-, -, -, ho, hp, -⟩ := uniformity (ε := Fault) options
  obtain ⟨members, entries, hms, -, ho', -⟩ := hs [] es p _ _ he
  refine ⟨hm, hv, (hl.enumerated (.object hm) (.host hk hv)).2, rfl, ho fun a _ => ?_, ?_, ?_⟩
  · cases a <;> rfl
  · have hh : (HostMap.values (Entries.ofList options) : Act Fault _) =
        pure (values (Entries.ofList options)) := (hp fun a => by cases a <;> rfl).2
    rw [hh]
    rfl
  · cases hms
    exact ho'

end Record

end ObjectModel
