import Mathlib
import ObjectModel.Proofs.Asking.Act
import ObjectModel.Script.Session

/-!
Which names a script asks the registry for: those that it mentions, in the order in which it is
evaluated. Main statement: what whole scripts do to the registry is to ask for the names that their
commands mention, up to the fault of those that fault (`Script.Session.run_asked`).
-/

namespace ObjectModel.Script

open Act

variable {ε : Type} {regs : Registers}

/-! ### Names that are mentioned -/

def KeyExpr.names : KeyExpr → List String
  | keyword s => [s]
  | _ => []

namespace Expr

mutual

def names : Expr → List String
  | .keyword name => [name]
  | .list items => itemNames items
  | .object members => memberNames members
  | .map entries => entryNames entries
  | .function _ code => codeNames code
  | _ => []

def itemNames : List Expr → List String
  | [] => []
  | e :: rest => names e ++ itemNames rest

def memberNames : List (String × Expr) → List String
  | [] => []
  | (_, e) :: rest => names e ++ memberNames rest

def entryNames : List (Expr × Expr) → List String
  | [] => []
  | (k, e) :: rest => names k ++ (names e ++ entryNames rest)

def codeNames : Code KeyExpr Expr → List String
  | .const e => names e
  | .fail key | .send key => key.names
  | .path keys | .pathArg keys => keys.flatMap KeyExpr.names
  | _ => []

end

end Expr

/-- The keyword among host data, if there is one. -/
def hostNames : Host String → List String
  | .keyword name => [name]
  | .present h => hostNames h
  | _ => []

def keyNames : MapKey String → List String
  | .keyword name => [name]
  | _ => []

def Make.names : Make → List String
  | expr e | receiver e | item e _ | own e _ | entries e | keys e | values e | wrap _ _ e
  | copy e => e.names
  | member base key => base.names ++ key.names
  | nilMember key => key.names
  | call fn args => fn.names ++ Expr.itemNames args
  | bind fn target => fn.names ++ target.names
  | host h => hostNames h

/-- The names that starting from a source asks for: none if it cannot be read. -/
def Source.names : Source → List String
  | document text =>
    match Settings.ofToml text with
    | .ok s => s.names
    | .error _ => []
  | settings s => s.names

def Observe.names : Observe → List String
  | equal a b | equalItems a b => a.names ++ b.names
  | display e | debug e | pretty e | inspect e | object e _ | iterate e _ | record e | mapKey e =>
    e.names
  | hostKey host other => keyNames host ++ other.names
  | key k => k.names
  | equalKeys a b => a.names ++ b.names
  | countKeys keys => keys.flatMap KeyExpr.names
  -- the first one is asked for again by the text of its keyword
  | keyword name other => [name, name, other]
  | register name => [name]
  | start source => source.names
  | _ => []

def Command.names : Command → List String
  | make m _ _ => m.names
  | observe o => o.names

/-! ### Expressions -/

lemma asks_key (k : KeyExpr) : (k.eval : Act ε MemberKey).Asks k.names := by
  cases k with
  | keyword s => exact (asks_intern s).andThen fun _ => asks_registry.bind fun _ => asks_pure _
  | _ => exact asks_pure _

lemma asks_keys (ks : List KeyExpr) :
    (KeyExpr.evalAll ks : Act ε (List MemberKey)).Asks (ks.flatMap KeyExpr.names) := by
  induction ks with
  | nil => exact asks_pure _
  | cons k ks ih => exact (asks_key k).bind fun _ => ih.andThen fun _ => asks_pure _

lemma asks_mapKeyOf (v : Value) : (mapKeyOf v).Asks [] := by
  unfold mapKeyOf
  split
  · exact asks_pure _
  · exact asks_throw _

mutual

theorem asks_eval : ∀ e : Expr, (e.eval regs).Asks e.names
  | .nil | .null | .bool _ | .int _ | .float _ | .str _ | .repeated _ _ => asks_pure _
  | .keyword name => (asks_intern name).andThen fun _ => asks_pure _
  | .list items => (asks_items items).andThen fun _ => Value.asks_newList _
  | .object members => (asks_members members).andThen fun _ => Value.asks_newObject _
  | .map entries => (asks_entries entries).andThen fun _ => Value.asks_newMap _
  | .function _ code =>
    (asks_code code).andThen fun _ => asks_fresh.bind fun _ => asks_pure _
  | .register name => by
    unfold Expr.eval
    split
    · exact asks_pure _
    · exact asks_throw _

theorem asks_items : ∀ es : List Expr, (Expr.evalItems regs es).Asks (Expr.itemNames es)
  | [] => asks_pure _
  | e :: es => (asks_eval e).bind fun _ => (asks_items es).andThen fun _ => asks_pure _

theorem asks_members :
    ∀ es : List (String × Expr), (Expr.evalMembers regs es).Asks (Expr.memberNames es)
  | [] => asks_pure _
  | (_, e) :: es => (asks_eval e).bind fun _ => (asks_members es).andThen fun _ => asks_pure _

theorem asks_entries :
    ∀ es : List (Expr × Expr), (Expr.evalEntries regs es).Asks (Expr.entryNames es)
  | [] => asks_pure _
  | (k, e) :: es => (asks_eval k).bind fun v => (asks_mapKeyOf v).bind fun _ =>
    (asks_eval e).bind fun _ => (asks_entries es).andThen fun _ => asks_pure _

theorem asks_code : ∀ code : Code KeyExpr Expr, (Expr.evalCode regs code).Asks (Expr.codeNames code)
  | .this | .args | .sum | .apply => asks_pure _
  | .const e => (asks_eval e).andThen fun _ => asks_pure _
  | .fail key | .send key => (asks_key key).andThen fun _ => asks_pure _
  | .path keys | .pathArg keys => (asks_keys keys).andThen fun _ => asks_pure _

end

/-! ### Commands that make a value -/

lemma asks_functionOf (v : Value) : (functionOf v).Asks [] := by
  cases v with
  | function f => exact asks_pure _
  | _ => exact asks_throw _

lemma asks_membersOf (v : Value) : (membersOf v).Asks [] := by
  cases v with
  | object id members => exact asks_pure _
  | _ => exact asks_throw _

lemma asks_newListOf (items : Option (List Value)) :
    (newListOf items : Act ε (Option Value)).Asks [] := by
  cases items with
  | some items => exact (Value.asks_newList items).bind fun _ => asks_pure _
  | none => exact asks_pure _

lemma asks_wrap (w : Wrapper) (times : Nat) (v : Value) :
    (w.times times v : Act ε Value).Asks [] := by
  induction times generalizing v with
  | zero => exact asks_pure _
  | succ n ih =>
    have ho : (w.once v : Act ε Value).Asks [] := by
      cases w with
      | list => exact Value.asks_newList _
      | object key => exact Value.asks_newObject _
      | map key => exact Value.asks_newMap _
    exact ho.bind fun u => ih u

lemma asks_host (h : Host String) : (h.intern : Act ε (Host Keyword)).Asks (hostNames h) := by
  induction h with
  | keyword name => exact (asks_intern name).andThen fun _ => asks_pure _
  | present h ih => exact ih.andThen fun _ => asks_pure _
  | _ => exact asks_pure _

lemma asks_make (depth : Nat) (m : Make) : (m.run depth regs).Asks m.names := by
  cases m with
  | expr e => exact (asks_eval e).andThen fun _ => asks_pure _
  | member base key =>
    refine (asks_eval base).bind fun v => (asks_key key).andThen fun k => ?_
    exact ((Value.asks_member v k).mapError _).bind fun _ => asks_pure _
  | nilMember key =>
    refine (asks_key key).andThen fun k => ?_
    exact ((asks_nilMember k).mapError _).bind fun _ => asks_pure _
  | call fn args =>
    refine (asks_eval fn).bind fun v => (asks_functionOf v).bind fun f => ?_
    refine (asks_items args).andThen fun vs => ?_
    exact ((Callable.asks_call depth f vs).mapError _).bind fun _ => asks_pure _
  | bind fn target =>
    refine (asks_eval fn).bind fun v => (asks_functionOf v).bind fun f => ?_
    refine (asks_eval target).andThen fun r => ?_
    exact (f.asks_bind r).bind fun _ => asks_pure _
  | receiver fn =>
    exact (asks_eval fn).andThen fun v => (asks_functionOf v).bind fun _ => asks_pure _
  | item list index => exact (asks_eval list).andThen fun _ => asks_pure _
  | own object name =>
    exact (asks_eval object).andThen fun v => (asks_membersOf v).bind fun _ => asks_pure _
  | entries object =>
    refine (asks_eval object).andThen fun v => (asks_membersOf v).bind fun ms => ?_
    exact (Value.asks_newEntries ms).bind fun _ => asks_pure _
  | keys record => exact (asks_eval record).andThen fun _ => asks_newListOf _
  | values record => exact (asks_eval record).andThen fun _ => asks_newListOf _
  | wrap w times e =>
    exact (asks_eval e).andThen fun v => (asks_wrap w times v).bind fun _ => asks_pure _
  | host h => exact (asks_host h).andThen fun _ => asks_pure _
  | copy object =>
    refine (asks_eval object).andThen fun v => ?_
    split
    · exact (Value.asks_newObject _).bind fun _ => asks_pure _
    · exact asks_throw _

/-! ### Commands that observe -/

lemma asks_shapeOf (v : Value) : (shapeOf v : Act ε Shape).Asks [] :=
  asks_registry.bind fun _ => asks_pure _

lemma asks_shapesOf (vs : List Value) : (shapesOf vs : Act ε (List Shape)).Asks [] :=
  asks_registry.bind fun _ => asks_pure _

lemma asks_recordAnswer (ks vs : List Value) :
    (do return .record (← shapesOf ks) (← shapesOf vs) : Act ε Answer).Asks [] :=
  (asks_shapesOf ks).bind fun _ => (asks_shapesOf vs).bind fun _ => asks_pure _

lemma asks_internKey (key : MapKey String) :
    (internKey key : Act ε (MapKey Keyword)).Asks (keyNames key) := by
  cases key with
  | keyword name => exact (asks_intern name).andThen fun _ => asks_pure _
  | _ => exact asks_pure _

lemma asks_read (source : Source) : source.read.Asks [] := by
  unfold Source.read
  split
  · split
    · exact asks_pure _
    · exact asks_throw _
  · exact asks_pure _

lemma asks_startFrom (source : Source) :
    (do
      let s ← source.read
      let ks ← s.start.mapError .settings
      return .started (ks.map (← Act.registry).nameOf) : Act Fault Answer).Asks source.names := by
  have hs (s : Settings) : (do
      let ks ← s.start.mapError .settings
      return .started (ks.map (← Act.registry).nameOf) : Act Fault Answer).Asks s.names :=
    ((asks_start s).mapError _).andThen fun _ => asks_registry.bind fun _ => asks_pure _
  cases source with
  | settings s => exact hs s
  | document text =>
    simp only [Source.read, Source.names]
    cases Settings.ofToml text with
    | ok s => exact hs s
    | error e => exact asks_throw _

/-- Registering a name and going on with the text of its keyword is going on with the name. -/
lemma asks_internText {β : Type} {name : String} {f : Keyword → String → Act ε β}
    {ys : List String} (hf : ∀ k, (f k name).Asks ys) :
    (do
      let k ← Act.intern name
      let r ← Act.registry
      f k (r.nameOf k)).Asks (name :: ys) := by
  have he : (do
      let k ← Act.intern name
      let r ← Act.registry
      f k (r.nameOf k)) = Act.intern name >>= fun k => f k name := by
    funext p
    simp only [bind_apply, intern_apply, registry_apply, (p.holds_intern name).nameOf_eq]
  rw [he]
  exact (asks_intern name).bind hf

lemma asks_observe (o : Observe) : (o.run regs).Asks o.names := by
  cases o with
  | equal a b => exact (asks_eval a).bind fun _ => (asks_eval b).andThen fun _ => asks_pure _
  | equalItems a b => exact (asks_eval a).bind fun _ => (asks_eval b).andThen fun _ => asks_pure _
  | display e => exact (asks_eval e).andThen fun v => (asks_shapeOf v).bind fun _ => asks_pure _
  | debug e => exact (asks_eval e).andThen fun v => (asks_shapeOf v).bind fun _ => asks_pure _
  | pretty e => exact (asks_eval e).andThen fun v => (asks_shapeOf v).bind fun _ => asks_pure _
  | inspect e => exact (asks_eval e).andThen fun _ => asks_registry.bind fun _ => asks_pure _
  | object e keys =>
    exact (asks_eval e).andThen fun v => (asks_membersOf v).bind fun _ => asks_pure _
  | iterate e steps =>
    refine (asks_eval e).andThen fun v => (asks_membersOf v).bind fun _ => ?_
    exact asks_registry.bind fun _ => asks_pure _
  | record e =>
    refine (asks_eval e).andThen fun v => ?_
    split
    · exact asks_recordAnswer _ _
    · exact asks_recordAnswer _ _
    · exact asks_throw _
  | hostMap pairs => exact asks_recordAnswer _ _
  | mapKey e =>
    refine (asks_eval e).andThen fun v => ?_
    split
    · exact asks_pure _
    · exact asks_registry.bind fun _ => (asks_shapeOf _).bind fun _ => asks_pure _
  | hostKey host other =>
    refine (asks_internKey host).bind fun k => (asks_eval other).andThen fun v => ?_
    exact asks_registry.bind fun _ => (asks_shapeOf _).bind fun _ => asks_pure _
  | key k => exact (asks_key k).andThen fun _ => asks_pure _
  | equalKeys a b => exact (asks_key a).bind fun _ => (asks_key b).andThen fun _ => asks_pure _
  | countKeys keys => exact (asks_keys keys).andThen fun _ => asks_pure _
  | keyword name other =>
    let answer (k : Keyword) (text : String) : Act Fault Answer := do
      let again ← Act.intern text
      let o ← Act.intern other
      return .keyword text text (keywordOutline text).inline (again == k) (o == k)
    refine asks_internText (f := answer) fun _ => ?_
    exact (asks_intern name).bind fun _ => (asks_intern other).andThen fun _ => asks_pure _
  | settings source =>
    refine (asks_read source).bind fun s => ?_
    split
    · exact asks_pure _
    · exact asks_throw _
  | findKeyword name => exact asks_registry.bind fun _ => asks_pure _
  | register name =>
    exact (asks_intern name).andThen fun _ => asks_registry.bind fun _ => asks_pure _
  | start source => exact asks_startFrom source
  | _ => exact asks_pure _

/-! ### Sessions -/

/-- The names that commands with these answers have asked for: each of them all that it mentions,
or, if it faults, those that were evaluated before the fault. As names are evaluated in the order in
which they are mentioned, these are the first of them. -/
inductive Asked : List Command → List Answer → List String → Prop where
  | nil : Asked [] [] []
  | cons {c : Command} {a : Answer} {xs : List String} {cs : List Command} {as : List Answer}
      {ys : List String} (hx : xs <+: c.names) (ha : (∀ f, a ≠ .fault f) → xs = c.names)
      (h : Asked cs as ys) : Asked (c :: cs) (a :: as) (xs ++ ys)

lemma Session.process_keep (s : Session) (into : Option String) (v : Value) :
    (s.keep into v).process = s.process := by
  cases into <;> rfl

open Process (Advance)

lemma Command.run_asked (depth : Nat) (s : Session) (c : Command) :
    ∃ xs, xs <+: c.names ∧ ((∀ f, (c.run depth s).1 ≠ .fault f) → xs = c.names) ∧
      Advance xs s.process (c.run depth s).2.process := by
  cases c with
  | make m into quiet =>
    have he : Ends m.names s.process (m.run depth s.registers s.process) := asks_make depth m _
    simp only [Command.run]
    generalize m.run depth s.registers s.process = x at he ⊢
    cases he with
    | error hx h => exact ⟨_, hx, fun hf => absurd rfl (hf _), h⟩
    | @ok a p h =>
      cases a with
      | none => exact ⟨_, List.prefix_rfl, fun _ => rfl, h⟩
      | some v =>
        refine ⟨_, List.prefix_rfl, fun _ => rfl, ?_⟩
        rw [Session.process_keep]
        exact h
  | observe o =>
    have he : Ends o.names s.process (o.run s.registers s.process) := asks_observe o _
    simp only [Command.run]
    generalize o.run s.registers s.process = x at he ⊢
    cases he with
    | error hx h => exact ⟨_, hx, fun hf => absurd rfl (hf _), h⟩
    | ok h => exact ⟨_, List.prefix_rfl, fun _ => rfl, h⟩

/-- **A script** does to the registry what its commands ask for, and nothing else. -/
theorem Session.run_asked (depth : Nat) (s : Session) (cs : List Command) :
    ∃ xs, Asked cs ((s.run depth cs).1.map Reply.answer) xs ∧
      Advance xs s.process (s.run depth cs).2.process := by
  induction cs generalizing s with
  | nil => exact ⟨[], .nil, .refl _⟩
  | cons c cs ih =>
    obtain ⟨xs, hx, ha, h⟩ := c.run_asked depth s
    obtain ⟨ys, hy, h'⟩ := ih (c.run depth s).2
    rw [run_cons]
    exact ⟨xs ++ ys, .cons hx ha hy, h.trans h'⟩

end ObjectModel.Script
