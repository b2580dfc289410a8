import Mathlib
import ObjectModel.Proofs.Binding
import ObjectModel.Proofs.Identity

/-!
Reading one member over and over. What is stored comes out as it is, and is equal to what came out
before, unless it is NaN or a function that is not bound yet. Such a function is bound anew by every
read; each of its bindings is equal to nothing that there was, though all of them do the same when
they are called. Main statement: `Script.Session.rereading_laws`.
-/

namespace ObjectModel

open Script

variable {f : Function} {o u v w : Value} {id : Ident} {members : List (String × Value)}
  {k : String} {p p' q q' : Process} {act act' : Act LookupError Value} {L : Ledger}

/-! ### What came before -/

/-- The value has no identity of its own, or one that has been given out. -/
def Value.Precedes (v : Value) (p : Process) : Prop := ∀ i, v.identity? = some i → i < p.next

lemma Creation.precedes_value (c : Creation) {i : Ident} (h : i < p.next) :
    (c.value i).Precedes p := by
  intro j hj
  rw [identity?_value] at hj
  exact Option.some_inj.1 hj ▸ h

/-- What is made now is equal to nothing that came before. -/
lemma Creation.beq_of_precedes (c : Creation) (h : v.Precedes p) :
    (c.value p.next == v) = false ∧ (v == c.value p.next) = false := by
  have hne : (c.value p.next == v) = false := by
    by_contra hb
    exact lt_irrefl _ (h _ (identity_of_same (Bool.eq_true_of_not_eq_false hb)))
  exact ⟨hne, (Value.beq_comm _ _).trans hne⟩

/-! ### Binding -/

namespace Callable

/-- The ways to bind `f`, which `o` holds as `k`, to `o`: to read it from there, or to bind it by
hand. -/
inductive Binds (f : Function) (o : Value) (k : String) : Act LookupError Value → Prop where
  | read : Binds f o k (o.member (.name k))
  | bind : Binds f o k (do return .function (← f.bind o))

/-- Both make a binding under the next identity. -/
lemma Binds.apply (h : f.Binds (.object id members) k act)
    (hs : Entries.get? k members = some (.function f)) (hf : f.isBound = false) (p : Process) :
    act p = .ok ((Creation.binding f.name f.body (.object id members)).value p.next) p.fresh.2 := by
  have hr : f.receiver = none := by simpa [isBound] using hf
  cases h with
  | read =>
    rw [Value.member_of_present rfl, Value.stored?, hs, Value.settle_function, hr]
    rfl
  | bind =>
    rw [Act.bind_apply, Value.bind_of_unbound hr]
    rfl

/-- A later binding is another one. -/
lemma Binds.beq_later (hs : Entries.get? k members = some (.function f)) (hf : f.isBound = false)
    (h : f.Binds (.object id members) k act) (h' : f.Binds (.object id members) k act')
    (hu : act p = .ok u q) (hle : q.next ≤ p'.next) (hw : act' p' = .ok w q') :
    (w == u) = false ∧ (u == w) = false := by
  cases (h.apply hs hf p).symm.trans hu
  cases (h'.apply hs hf p').symm.trans hw
  exact Creation.beq_of_precedes _ (Creation.precedes_value _ hle)

lemma Binds.agree (h : f.Binds o k act) (ho : Ledger.pairing.Alike L o o)
    (hf : Ledger.pairing.Alike L (.function f) (.function f)) :
    Ledger.pairing.Agree L Ledger.pairing.Alike act act := by
  cases h with
  | read => exact Pairing.agree_member ho _
  | bind =>
    exact Pairing.agree_bind (Pairing.agree_bind_function hf ho) fun _ _ _ _ h =>
      Pairing.agree_pure h

end Callable

/-! ### Two reads -/

namespace Value

/-- A function that is bound to nothing. -/
def isUnbound : Value → Bool
  | function f => !f.isBound
  | _ => false

lemma function_of_isUnbound (h : v.isUnbound) : ∃ f, v = .function f ∧ f.isBound = false := by
  cases v with
  | function f => exact ⟨f, rfl, by simpa [isUnbound] using h⟩
  | _ => cases h

lemma asRead_eq_self (h : v.isUnbound = false) (hn : v ≠ null) (r : Value) (i : Ident) :
    v.asRead r i = v := by
  cases v with
  | null => exact absurd rfl hn
  | function f =>
    have hf : f.isBound := by simpa [isUnbound] using h
    simp only [asRead, Callable.boundTo_of_isBound hf]
  | _ => rfl

/-- Only what is bound to nothing looks different each time. -/
lemma asRead_eq (h : v.isUnbound = false) (r : Value) (i j : Ident) :
    v.asRead r i = v.asRead r j := by
  by_cases hn : v = null
  · rw [hn]
    rfl
  · rw [asRead_eq_self h hn, asRead_eq_self h hn]

lemma isNaN_asRead (v r : Value) (i : Ident) : (v.asRead r i).isNaN = v.isNaN := by
  cases v <;> rfl

lemma eq_of_member_object (h : (object id members).member (.name k) p = .ok u q) :
    u = ((Entries.get? k members).getD nil).asRead (object id members) p.next := by
  obtain ⟨q', h'⟩ := member_object id members k p
  cases h'.symm.trans h
  rfl

/-- **Two reads**, the later one whatever has been done since, are equal exactly if what is stored
is neither NaN nor a function that is bound to nothing. -/
lemma beq_reads_iff (hu : (object id members).member (.name k) p = .ok u q)
    (hle : q.next ≤ p'.next) (hw : (object id members).member (.name k) p' = .ok w q') :
    u == w ↔ ∀ v ∈ Entries.get? k members, v.isNaN = false ∧ v.isUnbound = false := by
  have hu' := eq_of_member_object hu
  have hw' := eq_of_member_object hw
  cases hs : Entries.get? k members with
  | none =>
    rw [hs] at hu' hw'
    rw [hu', hw']
    exact ⟨fun _ => nofun, fun _ => rfl⟩
  | some v =>
    rw [hs, Option.getD_some] at hu' hw'
    simp only [Option.mem_some_iff, forall_eq']
    cases hv : v.isUnbound with
    | false =>
      rw [hu', hw', asRead_eq hv _ p'.next p.next, beq_self_eq, isNaN_asRead]
      simp
    | true =>
      obtain ⟨f, rfl, hf⟩ := function_of_isUnbound hv
      simp [(Callable.Binds.beq_later hs hf .read .read hu hle hw).2]

end Value

/-! ### Sessions that go on -/

namespace Script.Session

variable {s : Session}

/-- The session when `u` has been made in it, and perhaps kept, and further commands have run. -/
def goOn (s : Session) (u : Value) (p : Process) (into : Option String) (depth : Nat)
    (later : List Command) : Session :=
  ((⟨p, s.registers.write into (some u)⟩ : Session).run depth later).2

lemma next_le_goOn (s : Session) (u : Value) (p : Process) (into : Option String) (depth : Nat)
    (later : List Command) : p.next ≤ (s.goOn u p into depth later).process.next := by
  obtain ⟨xs, -, h⟩ := run_asked depth ⟨p, s.registers.write into (some u)⟩ later
  exact h.next_le

lemma exists_together_goOn (h : Ledger.pairing.Together L s s)
    (ha : Ledger.pairing.Agree L Ledger.pairing.Alike act act) (hu : act s.process = .ok u p)
    (into : Option String) (depth : Nat) (later : List Command) :
    ∃ L', Ledger.pairing.Together L' (s.goOn u p into depth later)
      (s.goOn u p into depth later) := by
  have he := ha _ _ h.joins
  rw [hu] at he
  cases he with
  | ok hL hj hv =>
    have hr := rel_write (Ledger.pairing.members_mono hL h.registers) (.some hv) into
    have ht : Ledger.pairing.Together _ (⟨p, s.registers.write into (some u)⟩ : Session)
      ⟨p, s.registers.write into (some u)⟩ := ⟨hj, hr⟩
    obtain ⟨L', -, h', -⟩ := Pairing.session_run depth ht later
    exact ⟨L', h'⟩

/-- Whatever a session holds came before. -/
lemma precedes_of_holds (h : Ledger.pairing.Together L s s) (hv : s.Holds v) :
    v.Precedes s.process := by
  intro i hi
  obtain ⟨c, hc, -⟩ := Ledger.value_of_identity (alike_of_holds h hv) hi
  rw [h.joins.next_eq]
  exact (List.getElem?_eq_some_iff.1 hc).1

/-- So a new binding is equal to nothing that is held. -/
lemma beq_holds (ht : Ledger.pairing.Together L s s)
    (hs : Entries.get? k members = some (.function f)) (hf : f.isBound = false)
    (h : f.Binds (.object id members) k act) (hu : act s.process = .ok u p) :
    u.isCallable ∧ ∀ a, s.Holds a → (u == a) = false ∧ (a == u) = false := by
  cases (h.apply hs hf _).symm.trans hu
  exact ⟨rfl, fun a ha => Creation.beq_of_precedes _ (precedes_of_holds ht ha)⟩

/-- What comes of reading `k` from `o` in the session, and of reading it again at any later time,
where `stored` is the member as it is stored. -/
structure Rereads (s : Session) (o : Value) (k : String) (stored : Option Value) : Prop where
  exists_read (p : Process) : ∃ u q, o.member (.name k) p = .ok u q
  beq_iff {u w : Value} {p q : Process} {into : Option String} {depth : Nat}
    {later : List Command} : o.member (.name k) s.process = .ok u p →
    o.member (.name k) (s.goOn u p into depth later).process = .ok w q →
      (u == w ↔ ∀ v ∈ stored, v.isNaN = false ∧ v.isUnbound = false)
  /-- Then either of them is equal to what is stored, if that is anything. -/
  beq_stored {u v : Value} {p q : Process} : stored = some v → v ≠ .null → v.isNaN = false →
    v.isUnbound = false → o.member (.name k) p = .ok u q → u == v
  /-- A new binding is a function that is equal to nothing that there is, in whatever value. -/
  beq_held {f : Function} {act : Act LookupError Value} {u : Value} {p : Process} :
    stored = some (.function f) → f.isBound = false → f.Binds o k act → act s.process = .ok u p →
      u.isCallable ∧ ∀ a, s.Holds a → (u == a) = false ∧ (a == u) = false
  /-- Another one, at any later time, has nothing equal to it either, the first binding included,
  whether it was kept or not. -/
  beq_held_later {f : Function} {act act' : Act LookupError Value} {u w : Value} {p q : Process}
    {into : Option String} {depth : Nat} {later : List Command} :
    stored = some (.function f) → f.isBound = false → f.Binds o k act → f.Binds o k act' →
    act s.process = .ok u p → act' (s.goOn u p into depth later).process = .ok w q →
      w.isCallable ∧ (∀ a, (s.goOn u p into depth later).Holds a →
        (w == a) = false ∧ (a == w) = false) ∧ (w == u) = false ∧ (u == w) = false
  /-- Calls of any of them, whenever it was made, run the same body with `o` as receiver. -/
  call_eq {f : Function} {act : Act LookupError Value} {u : Value} {p q : Process} :
    stored = some (.function f) → f.isBound = false → f.Binds o k act → act p = .ok u q →
      ∃ g, u = .function g ∧ g.body = f.body ∧ g.receiver? = some o ∧
        ∀ depth args, g.call (depth + 1) args = f.body.apply depth o args

/-- **Reading again.** Whatever member of whatever object a session holds is read, in the session
and once more at any later time. -/
theorem rereading_laws (depth : Nat) (cs : List Command) {id : Ident}
    {members : List (String × Value)} (h : (initial.run depth cs).2.Holds (.object id members))
    (k : String) :
    (initial.run depth cs).2.Rereads (.object id members) k (Entries.get? k members) := by
  obtain ⟨L, ht⟩ := exists_together depth cs
  generalize (initial.run depth cs).2 = s at h ht ⊢
  constructor
  · intro p
    obtain ⟨q, hq⟩ := Value.member_object id members k p
    exact ⟨_, q, hq⟩
  · intro u w p q into depth later hu hw
    exact Value.beq_reads_iff hu (next_le_goOn s u p into depth later) hw
  · intro u v p q hs hn hv hb hu
    rw [Value.eq_of_member_object hu, hs, Option.getD_some, Value.asRead_eq_self hb hn,
      Value.beq_self_eq, hv]
    rfl
  · intro f act u p hs hf hb hu
    exact beq_holds ht hs hf hb hu
  · intro f act act' u w p q into depth later hs hf hb hb' hu hw
    -- the session stays coherent, so the later binding is as new there as the first one was here
    have ho := alike_of_holds ht h
    have hfn : Ledger.pairing.Alike L (.function f) (.function f) := by
      cases ho with
      | object _ hm =>
        have hr := Entries.rel_get? biUnique_eq (k := k) rfl hm
        rw [hs] at hr
        cases hr with
        | some hr => exact hr
    obtain ⟨L', ht'⟩ := exists_together_goOn ht (hb.agree ho hfn) hu into depth later
    obtain ⟨hc, ha⟩ := beq_holds ht' hs hf hb' hw
    exact ⟨hc, ha, hb.beq_later hs hf hb' hu (next_le_goOn s u p into depth later) hw⟩
  · intro f act u p q hs hf hb hu
    cases (hb.apply hs hf p).symm.trans hu
    exact ⟨_, rfl, rfl, rfl, Callable.call_of_receiver rfl⟩

/-- A method that is read twice in a row and kept the first time. -/
theorem rereading_of_method :
    let s := (initial.run 1
      [.make (.expr (.object [("m", .function "f" .this)])) (some "o") true]).2
    let f : Function := ⟨"f", .native 0 .this, none⟩
    let o : Value := .object 1 [("m", .function f)]
    s.Holds o ∧ s.Rereads o "m" (some (.function f)) ∧ ∃ u p w q,
      o.member (.name "m") s.process = .ok u p ∧
      o.member (.name "m") (s.goOn u p (some "g") 1 []).process = .ok w q ∧ (u == w) = false := by
  intro s f o
  have ho : s.Holds o := ⟨("o", o), .head _, .refl⟩
  have h : s.Rereads o "m" (some (.function f)) := rereading_laws 1 _ ho "m"
  obtain ⟨u, p, hu⟩ := h.exists_read s.process
  obtain ⟨w, q, hw⟩ := h.exists_read (s.goOn u p (some "g") 1 []).process
  exact ⟨ho, h, u, p, w, q, hu, hw, (h.beq_held_later rfl rfl .read .read hu hw).2.2.2⟩

end Script.Session

end ObjectModel
