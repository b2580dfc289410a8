import ObjectModel.Number.Binary64

/-!
The fewest decimal digits that read back as a given binary64 number.

A number owns the interval of reals that round to it, its ends included when the significand is
even. `shortest` takes the first digit count whose decimal grid has a point in the interval, and of
two neighbours in it the nearer, a tie going up. All of it is exact arithmetic on `Nat`.
-/

namespace ObjectModel

/-- The decimal number `coefficient * 10 ^ exponent`. -/
structure Decimal where
  coefficient : Nat
  exponent : Int
deriving DecidableEq

/-- Without the factors of ten in the coefficient, at most `fuel` of them. -/
def Decimal.strip : Nat → Decimal → Decimal
  | 0, d => d
  | fuel + 1, d =>
    if d.coefficient ≠ 0 ∧ d.coefficient % 10 = 0 then
      Decimal.strip fuel ⟨d.coefficient / 10, d.exponent + 1⟩
    else d

/-- The reals that round to one number; `low`, `mid` and `high` count units of `1 / den`. -/
structure Binary64.Interval where
  low : Nat
  mid : Nat
  high : Nat
  den : Nat
  closed : Bool

namespace Binary64

/-- The interval of a finite magnitude. Below a power of two the next number is half as far. -/
def interval (x : Binary64) : Interval :=
  let below := if x.fractionBits = 0 ∧ 1 < x.exponentBits then 1 else 2
  let scale := Nat.pow 2 (x.exponent - 2).toNat
  { low := (4 * x.significand - below) * scale
    mid := 4 * x.significand * scale
    high := (4 * x.significand + 2) * scale
    den := Nat.pow 2 (2 - x.exponent).toNat
    closed := x.significand % 2 == 0 }

namespace Interval

/-- The interval in units of `10 ^ k`. -/
def rescale (i : Interval) (k : Int) : Interval :=
  let up := Nat.pow 10 (-k).toNat
  let down := Nat.pow 10 k.toNat
  { i with low := i.low * up, mid := i.mid * up, high := i.high * up, den := i.den * down }

def contains (i : Interval) (point : Nat) : Bool :=
  if i.closed then i.low ≤ point * i.den && point * i.den ≤ i.high
  else i.low < point * i.den && point * i.den < i.high

/-- The whole number in the interval that is nearest to its middle, if there is one. -/
def nearest? (i : Interval) : Option Nat :=
  let c := i.mid / i.den
  match i.contains c, i.contains (c + 1) with
  | true, true => some (if 2 * i.mid < (2 * c + 1) * i.den then c else c + 1)
  | true, false => some c
  | false, true => some (c + 1)
  | false, false => none

/-- The `p` with `10 ^ (p - 1) ≤ mid / den < 10 ^ p`. -/
def magnitude (i : Interval) : Int :=
  if i.den ≤ i.mid then (Nat.toDigits 10 (i.mid / i.den)).length
  else 1 - (Nat.toDigits 10 ((i.den - 1) / i.mid)).length

end Interval

/-- A binary64 number never needs more decimal digits. -/
def maxDigits : Nat := 17

/-- The shortest decimal of a finite nonzero magnitude. -/
def shortest (x : Binary64) : Decimal :=
  let i := x.interval
  let p := i.magnitude
  let grid (n : Nat) : Option Decimal :=
    (i.rescale (p - n)).nearest?.map fun c => ⟨c, p - n⟩
  let found := (List.range maxDigits).findSome? fun n => grid (n + 1)
  let finest := i.rescale (p - maxDigits)
  (found.getD ⟨finest.mid / finest.den, p - maxDigits⟩).strip maxDigits

end Binary64

end ObjectModel
