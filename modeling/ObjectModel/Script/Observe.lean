import ObjectModel.Cursor
import ObjectModel.Script.Make
import ObjectModel.Settings.Document
import ObjectModel.Startup
import ObjectModel.Value.Equality

/-!
The commands that look at values, keys, keywords and settings, and what each of them answers.

An answer holds texts and shapes, never identities or keyword numbers, so answers of two runs can
be compared.
-/

namespace ObjectModel.Script

/-- Where settings come from. -/
inductive Source where
  | document (text : String)
  | settings (s : Settings)

inductive Observe where
  | equal (a b : Expr)
  | equalItems (a b : Expr)
  | display (e : Expr)
  | debug (e : Expr)
  | pretty (e : Expr)
  | inspect (e : Expr)
  | object (e : Expr) (keys : List String)
  /-- One pass over an object in a number of steps, and then another one. -/
  | iterate (e : Expr) (steps : Nat)
  | record (e : Expr)
  | hostMap (pairs : List (String × Option Int64))
  | mapKey (e : Expr)
  | hostKey (key : MapKey String) (other : Expr)
  | capability (c : Capability)
  | capabilities
  | capabilityOf (id : String)
  | key (k : KeyExpr)
  | equalKeys (a b : KeyExpr)
  | countKeys (keys : List KeyExpr)
  | keyword (name other : String)
  | nilText
  | settings (source : Source)
  | findKeyword (name : String)
  | register (name : String)
  | start (source : Source)

structure Inspection where
  kind : Kind
  isNil : Bool
  isAbsent : Bool
  isCallable : Bool
  str? : Option String
  int? : Option Int64
  keyword? : Option String
  items? : Option Nat
  members? : Option Nat
  entries? : Option Nat
  function? : Option String

inductive Answer where
  | made (s : Shape)
  | kind (k : Kind)
  | missing
  | fault (f : Fault)
  | equal (same : Bool)
  | equalItems (same : Bool)
  | text (s : String)
  | inspection (i : Inspection)
  | object (size : Nat) (isEmpty : Bool) (has : List Bool)
  | iteration (taken : List (Option (String × Shape) × Nat)) (hint : Nat × Option Nat)
      (again : List String)
  | record (keys values : List Shape)
  | mapKey (display debug : String) (back : Shape)
  | hostKey (display : String) (back : Shape) (same : Bool)
  | capability (id display debug : String)
  | capabilities (ids : List String)
  | found (s : Option String)
  | key (k : MemberKey) (display debug errorText errorDebug : String)
  | equalKeys (keys errors : Bool)
  | counts (keys : List (MemberKey × Nat))
  | keyword (text display debug : String) (same other : Bool)
  | nilText (display debug tag : String)
  | settings (s : Settings) (level : Level) (debug : String) (isStandard : Bool)
  | registered (name : String)
  | started (names : List String)

def Source.read : Source → Act Fault Settings
  | document text =>
    match Settings.ofToml text with
    | .ok s => pure s
    | .error e => throw (.settings e)
  | settings s => pure s

variable {ε : Type}

def shapeOf (v : Value) : Act ε Shape := return v.shape (← Act.registry).nameOf

def shapesOf (vs : List Value) : Act ε (List Shape) :=
  return Value.shapes (← Act.registry).nameOf vs

def inspection (registry : Registry) (v : Value) : Inspection where
  kind := v.kind
  isNil := v.isNil
  isAbsent := v.isAbsent
  isCallable := v.isCallable
  str? := v.str?
  int? := v.int?
  keyword? := v.keyword?.map registry.nameOf
  items? := v.items?.map List.length
  members? := v.members?.map List.length
  entries? := v.entries?.map List.length
  function? := v.function?.map Callable.name

/-- How often each key occurs, in the order of first occurrence. -/
def countKeys (keys : List MemberKey) : List (MemberKey × Nat) :=
  keys.foldl (fun es k => Entries.insert k ((Entries.get? k es).getD 0 + 1) es) []

/-- The shapes of the values among what a pass has taken. -/
def takenShapes (names : Keyword → String) (taken : List (Option (String × Value) × Nat)) :
    List (Option (String × Shape) × Nat) :=
  taken.map fun t => (t.1.map fun m => (m.1, m.2.shape names), t.2)

/-- The key with its keyword registered. -/
def internKey : MapKey String → Act ε (MapKey Keyword)
  | .str s => pure (.str s)
  | .int n => pure (.int n)
  | .bool b => pure (.bool b)
  | .keyword name => return .keyword (← Act.intern name)

namespace Observe

def run (regs : Registers) : Observe → Act Fault Answer
  | equal a b => do
    let a ← a.eval regs
    let b ← b.eval regs
    return .equal (a == b)
  | equalItems a b => do
    let a ← a.eval regs
    let b ← b.eval regs
    return .equalItems <|
      match a.items?, b.items? with
      | some as, some bs => Value.sameItems as bs
      | none, none => true
      | _, _ => false
  | display e => return .text (← shapeOf (← e.eval regs)).display
  | debug e => return .text (← shapeOf (← e.eval regs)).debug
  | pretty e => return .text (← shapeOf (← e.eval regs)).pretty
  | inspect e => do
    let v ← e.eval regs
    return .inspection (inspection (← Act.registry) v)
  | object e keys => do
    let members ← membersOf (← e.eval regs)
    return .object members.length members.isEmpty (keys.map fun k => Entries.contains k members)
  | iterate e steps => do
    let members ← membersOf (← e.eval regs)
    let (taken, last) := (Cursor.start members).steps steps
    return .iteration (takenShapes (← Act.registry).nameOf taken) last.sizeHint
      (Entries.keys members)
  | record e => do
    match ← e.eval regs with
    | .object _ members =>
      return .record (← shapesOf (Record.keys members)) (← shapesOf (Record.values members))
    | .map _ entries =>
      return .record (← shapesOf (Record.keys entries)) (← shapesOf (Record.values entries))
    | v => throw (.notRecord v.kind)
  | hostMap pairs => do
    let entries := Entries.ofList pairs
    return .record (← shapesOf (Record.keys entries)) (← shapesOf (Record.values entries))
  | mapKey e => do
    match (← e.eval regs).mapKey? with
    | none => return .missing
    | some k => do
      let named := k.map (← Act.registry).nameOf
      return .mapKey named.display named.debug (← shapeOf k.toValue)
  | hostKey host other => do
    let k ← internKey host
    let v ← other.eval regs
    return .hostKey (k.map (← Act.registry).nameOf).display (← shapeOf k.toValue)
      (v.mapKey? == some k)
  | capability c => return .capability c.id c.text c.label
  | capabilities => return .capabilities (Capability.all.map Capability.id)
  | capabilityOf id => return .found ((Capability.ofId? id).map Capability.label)
  | key k => do
    let k ← k.eval
    let e : LookupError := ⟨k⟩
    return .key k k.text k.debug e.message e.debug
  | equalKeys a b => do
    let a ← a.eval
    let b ← b.eval
    return .equalKeys (a == b) ((⟨a⟩ : LookupError) == ⟨b⟩)
  | countKeys keys => return .counts (Script.countKeys (← KeyExpr.evalAll keys))
  | keyword name other => do
    let k ← Act.intern name
    let text := (← Act.registry).nameOf k
    let again ← Act.intern text
    let o ← Act.intern other
    return .keyword text text (keywordOutline text).inline (again == k) (o == k)
  | nilText => return .nilText Shape.nil.display Shape.nil.debug nilTag
  | settings source => do
    let s ← source.read
    match s.level with
    | .ok level => return .settings s level s.debug (s == Settings.standard)
    | .error e => throw (.settings e)
  | findKeyword name => do
    let r ← Act.registry
    return .found ((r.find? name).map r.nameOf)
  | register name => do
    let k ← Act.intern name
    return .registered ((← Act.registry).nameOf k)
  | start source => do
    let s ← source.read
    let ks ← s.start.mapError .settings
    return .started (ks.map (← Act.registry).nameOf)

end Observe

end ObjectModel.Script
