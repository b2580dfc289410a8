import ObjectModel.Number.Shortest
import ObjectModel.Text.Numeral

/-!
Writing binary64 numbers as text: which numbers get an exponent and whether a whole number keeps
its point is a `NumberStyle`; the digits are always the shortest ones.
-/

namespace ObjectModel

/-- Numbers whose leading digit stands at a power of ten outside `plainFrom` to `plainTo` are
written with an exponent, if the style has one. -/
structure NumberStyle where
  exponent : Bool
  plainFrom : Int
  plainTo : Int
  /-- A whole number ends in `.0`. -/
  point : Bool

namespace NumberStyle

/-- Never an exponent, and no point where none is needed. -/
def plain : NumberStyle := ⟨false, 0, 0, false⟩

/-- An exponent from 10^16 on and below 10^-4, and else always a point. -/
def marked : NumberStyle := ⟨true, -4, 15, true⟩

end NumberStyle

namespace Decimal

def digits (d : Decimal) : List Char := Text.writeNat d.coefficient

/-- The power of ten of the first digit. -/
def lead (d : Decimal) : Int := (d.digits.length : Int) + d.exponent - 1

/-- Digits around the point, without exponent. -/
def positional (d : Decimal) (point : Bool) : List Char :=
  if d.lead < 0 then '0' :: '.' :: (List.replicate (-d.lead - 1).toNat '0' ++ d.digits)
  else if 0 ≤ d.exponent then
    d.digits ++ List.replicate d.exponent.toNat '0' ++ (if point then ['.', '0'] else [])
  else d.digits.take (d.lead + 1).toNat ++ '.' :: d.digits.drop (d.lead + 1).toNat

/-- One digit, the others behind a point, and the exponent. -/
def scientific (d : Decimal) : List Char :=
  let fraction := d.digits.tail
  d.digits.take 1 ++ (if fraction.isEmpty then [] else '.' :: fraction) ++
    'e' :: Text.writeInt d.lead

end Decimal

namespace Binary64

/-- The magnitude's text, for a number that is not a NaN. -/
def magnitudeText (style : NumberStyle) (x : Binary64) : List Char :=
  if x.isInfinite then ['i', 'n', 'f']
  else if x.isZero then '0' :: (if style.point then ['.', '0'] else [])
  else
    let d := x.shortest
    if style.exponent && (d.lead < style.plainFrom || style.plainTo < d.lead) then d.scientific
    else d.positional style.point

/-- The text of a number; a NaN has no sign. -/
def text (style : NumberStyle) (x : Binary64) : String :=
  if x.isNaN then "NaN"
  else String.ofList ((if x.negative then ['-'] else []) ++ x.magnitudeText style)

end Binary64

end ObjectModel
