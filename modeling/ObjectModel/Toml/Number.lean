import ObjectModel.Toml.Text
import ObjectModel.Toml.Value
import ObjectModel.Text.Numeral

/-!
Numbers in TOML. An underscore may stand between two digits. Whole numbers have 64 bits; numbers
with a fraction or an exponent may not be so large that they round to positive infinity.
-/

namespace ObjectModel.Toml

/-- The digits in front, with single underscores between them left out. -/
def moreDigits (p : Char → Bool) : List Char → List Char × List Char
  | [] => ([], [])
  | '_' :: c :: rest =>
    if p c then let r := moreDigits p rest; (c :: r.1, r.2) else ([], '_' :: c :: rest)
  | c :: rest => if p c then let r := moreDigits p rest; (c :: r.1, r.2) else ([], c :: rest)

/-- One digit or more. -/
def digits? (p : Char → Bool) : Reader (List Char)
  | [] => none
  | c :: rest => if p c then let r := moreDigits p rest; some (c :: r.1, r.2) else none

/-- One digit or more, the first of which is zero only if it is the only one. -/
def whole? : Reader (List Char)
  | '0' :: rest => some (['0'], rest)
  | cs => digits? Char.isDigit cs

/-- Whether a minus sign is in front, and what follows the sign, if there is one. -/
def sign : List Char → Bool × List Char
  | '-' :: rest => (true, rest)
  | '+' :: rest => (false, rest)
  | cs => (false, cs)

/-! ### Whole numbers -/

def isDigitIn (base : Nat) (c : Char) : Bool :=
  match hexValue? c with
  | some d => d < base
  | none => false

/-- A number in another base, its two leading characters read already. -/
def inBase? (base : Nat) (cs : List Char) : Option (Int64 × List Char) := do
  let (ds, rest) ← digits? (isDigitIn base) cs
  let n ← Text.int64? (ds.foldl (fun n c => base * n + ((hexValue? c).getD 0 : Nat)) (0 : Nat) : Nat)
  return (n, rest)

def integer? : Reader Int64
  | '0' :: 'x' :: rest => inBase? 16 rest
  | '0' :: 'o' :: rest => inBase? 8 rest
  | '0' :: 'b' :: rest => inBase? 2 rest
  | cs => do
    let (negative, cs) := sign cs
    let (ds, rest) ← whole? cs
    let n := Text.decimalValue ds
    return (← Text.int64? (if negative then -(n : Int) else n), rest)

/-! ### Other numbers -/

/-- The least number that rounds to infinity: halfway from the largest number to the next. -/
def overflowBound : Nat := Nat.pow 2 1024 - Nat.pow 2 970

/-- Rounds to infinity. The powers of ten needed to find out stay small. -/
def overflows (d : Decimal) : Bool :=
  let places := ((Text.writeNat d.coefficient).length : Int) + d.exponent
  if d.coefficient = 0 || places < 308 then false
  else if 310 < places then true
  else overflowBound * Nat.pow 10 (-d.exponent).toNat ≤ d.coefficient * Nat.pow 10 d.exponent.toNat

/-- The digits behind a point. -/
def fraction? : Reader (List Char)
  | '.' :: rest => digits? Char.isDigit rest
  | _ => none

/-- The exponent, its letter included. -/
def exponent? : Reader Int
  | [] => none
  | c :: rest =>
    if c = 'e' ∨ c = 'E' then do
      let (negative, cs) := sign rest
      let (ds, rest) ← digits? Char.isDigit cs
      let n := Text.decimalValue ds
      return (if negative then -(n : Int) else n, rest)
    else none

/-- Fraction and exponent, of which one may be missing. -/
def scale? (cs : List Char) : Option ((List Char × Int) × List Char) :=
  match fraction? cs with
  | some (ds, rest) =>
    match exponent? rest with
    | some (e, rest) => some ((ds, e), rest)
    | none => some ((ds, 0), rest)
  | none => (exponent? cs).map fun r => (([], r.1), r.2)

def finite? (cs : List Char) : Option (Real × List Char) := do
  let (negative, cs) := sign cs
  let (ds, cs) ← whole? cs
  let ((fraction, exponent), rest) ← scale? cs
  let d : Decimal := ⟨Text.decimalValue (ds ++ fraction), exponent - fraction.length⟩
  if !negative && overflows d then none else return (.finite negative d, rest)

def special? (cs : List Char) : Option (Real × List Char) :=
  let (negative, cs) := sign cs
  match after? ['i', 'n', 'f'] cs with
  | some rest => some (.infinite negative, rest)
  | none => (after? ['n', 'a', 'n'] cs).map fun rest => (.nan, rest)

def real? (cs : List Char) : Option (Real × List Char) := (finite? cs).or (special? cs)

end ObjectModel.Toml
