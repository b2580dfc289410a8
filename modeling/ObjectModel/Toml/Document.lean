import ObjectModel.Toml.DateTime
import ObjectModel.Toml.Table

/-!
TOML documents: keys, values, the statements of the lines, and the table they make together.

Arrays and inline tables nest less than eighty deep, and a dotted key has fewer than eighty parts.
-/

namespace ObjectModel.Toml

def nestingLimit : Nat := 80

/-! ### Keys -/

def isBareChar (c : Char) : Bool := c.isAlphanum || c = '_' || c = '-'

def bareKey? (cs : List Char) : Option (String × List Char) :=
  let name := cs.takeWhile isBareChar
  if name.isEmpty then none else some (String.ofList name, cs.dropWhile isBareChar)

/-- One part of a key, with the spaces around it. -/
def keyPart? (cs : List Char) : Option (String × List Char) :=
  let cs := skipSpaces cs
  ((lineString? cs).or (bareKey? cs)).map fun r => (r.1, skipSpaces r.2)

def Key.ofParts? (parts : List String) : Option Key := do
  let last ← parts.getLast?
  if parts.length < nestingLimit then return ⟨parts.dropLast, last⟩ else none

def key? (cs : List Char) : Option (Key × List Char) := do
  let (parts, rest) ← separated keyPart? '.' cs
  return (← Key.ofParts? parts, rest)

/-! ### Values -/

def scalar? (cs : List Char) : Option (Value × List Char) :=
  match string? cs with
  | some (s, rest) => some (.string s, rest)
  | none =>
    match after? ['t', 'r', 'u', 'e'] cs, after? ['f', 'a', 'l', 's', 'e'] cs with
    | some rest, _ => some (.boolean true, rest)
    | _, some rest => some (.boolean false, rest)
    | none, none =>
      match dateTime? cs, real? cs with
      | some (d, rest), _ => some (.dateTime d, rest)
      | none, some (x, rest) => some (.real x, rest)
      | none, none => (integer? cs).map fun r => (.integer r.1, r.2)

/-- The items of an array up to the bracket that closes it. A comma may follow the last one. -/
def arrayItems (item : Reader Value) (cs : List Char) : Option (List Value × List Char) :=
  match skipFiller false cs with
  | ']' :: rest => some ([], rest)
  | start =>
    match item start with
    | none => none
    | some (v, rest) =>
      match skipFiller false rest with
      | ']' :: rest => some ([v], rest)
      | ',' :: rest =>
        if _h : rest.length < cs.length then
          (arrayItems item rest).map fun r => (v :: r.1, r.2)
        else none
      | _ => none
termination_by cs.length

/-- A key and its value. -/
def pair? (item : Reader Value) (cs : List Char) : Option ((Key × Value) × List Char) := do
  let (k, cs) ← key? cs
  let (v, rest) ← item (skipSpaces (← after? ['='] cs))
  return ((k, v), rest)

/-- The pairs of an inline table up to the brace that closes it. -/
def inlineTable (item : Reader Value) (cs : List Char) : Option (Value × List Char) := do
  match after? ['\x7d'] (skipSpaces cs) with
  | some rest => return (.table [], rest)
  | none =>
    let spaced (cs : List Char) := (pair? item cs).map fun r => (r.1, skipSpaces r.2)
    let (pairs, cs) ← separated spaced ',' cs
    let rest ← after? ['\x7d'] cs
    return (.table (finishMembers (← Members.addAll [] pairs)), rest)

/-- A value in which arrays and inline tables nest at most `depth` deep. -/
def value? : Nat → Reader Value
  | 0, cs => scalar? cs
  | depth + 1, cs =>
    match after? ['['] cs, after? ['\x7b'] cs with
    | some rest, _ => (arrayItems (value? depth) rest).map fun r => (.array r.1, r.2)
    | _, some rest => inlineTable (value? depth) rest
    | none, none => scalar? cs

/-! ### Lines -/

inductive Statement where
  | table (key : Key)
  | element (key : Key)
  | pair (key : Key) (v : Value)

/-- A line: a statement, or nothing but a comment. -/
def line? (cs : List Char) : Option (Option Statement × List Char) :=
  match skipSpaces cs with
  | '[' :: '[' :: rest => do
    let (k, cs) ← key? rest
    return (some (.element k), ← lineEnd? (← after? [']', ']'] cs))
  | '[' :: rest => do
    let (k, cs) ← key? rest
    return (some (.table k), ← lineEnd? (← after? [']'] cs))
  | cs =>
    match lineEnd? cs with
    | some rest => some (none, rest)
    | none => do
      let ((k, v), rest) ← pair? (value? (nestingLimit - 1)) cs
      return (some (.pair k v), ← lineEnd? rest)

def statements? (cs : List Char) : Option (List Statement) :=
  match cs with
  | [] => some []
  | c :: more =>
    match line? (c :: more) with
    | none => none
    | some (s, rest) =>
      if _h : rest.length ≤ more.length then
        (statements? rest).map fun ss => s.toList ++ ss
      else none
termination_by cs.length

/-! ### Documents -/

/-- The tables so far, and the path of the header that is in force. -/
structure Assembly where
  root : Members
  header : List String

namespace Assembly

def start : Assembly := ⟨[], []⟩

def step (a : Assembly) : Statement → Option Assembly
  | .table k => return ⟨← a.root.update (Members.openTable k.last) k.path, k.parts⟩
  | .element k => return ⟨← a.root.update (Members.openElement k.last) k.path, k.parts⟩
  | .pair k v => return ⟨← a.root.update (Members.add k.last v k.path) a.header, a.header⟩

def run (a : Assembly) (ss : List Statement) : Option Assembly := ss.foldlM step a

end Assembly

/-- A byte order mark in front is no part of the text. -/
def skipMark : List Char → List Char
  | '\ufeff' :: rest => rest
  | cs => cs

/-- The top-level table of a document, if all of it is valid. -/
def document? (text : String) : Option (List (String × Value)) := do
  let ss ← statements? (skipMark text.toList)
  let a ← Assembly.start.run ss
  return finishMembers a.root

end ObjectModel.Toml
