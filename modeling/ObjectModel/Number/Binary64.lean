/-!
Binary64 numbers, held as their bits.

Equality of numbers (`Binary64.same`) is not equality of bits: a NaN is the same as nothing, not
even itself, and the two zeros are the same. Everything here is arithmetic on the bits, so that it
can be reasoned about.
-/

namespace ObjectModel

/-- A binary64 number by its sign, exponent and fraction bits. -/
structure Binary64 where
  bits : UInt64
deriving DecidableEq, Inhabited

namespace Binary64

/-- The topmost bit. -/
def negative (x : Binary64) : Bool := decide (0x8000000000000000 ≤ x.bits)

/-- There are 52 fraction bits; this is the weight of the bit above them. -/
def leadingBit : Nat := 0x10000000000000

/-- The eleven exponent bits as they stand. -/
def exponentBits (x : Binary64) : Nat := x.bits.toNat / leadingBit % 2048

def fractionBits (x : Binary64) : Nat := x.bits.toNat % leadingBit

def isNaN (x : Binary64) : Bool := x.exponentBits == 2047 && x.fractionBits != 0

def isInfinite (x : Binary64) : Bool := x.exponentBits == 2047 && x.fractionBits == 0

def isZero (x : Binary64) : Bool := x.exponentBits == 0 && x.fractionBits == 0

/-- A finite magnitude is `significand * 2 ^ exponent`. -/
def significand (x : Binary64) : Nat :=
  if x.exponentBits = 0 then x.fractionBits else x.fractionBits + leadingBit

def exponent (x : Binary64) : Int :=
  if x.exponentBits = 0 then -1074 else (x.exponentBits : Int) - 1075

/-- Equality of numbers. -/
def same (x y : Binary64) : Bool :=
  !x.isNaN && !y.isNaN && (x.bits == y.bits || x.isZero && y.isZero)

/-- One NaN stands for all of them. -/
def canonical (x : Binary64) : Binary64 :=
  if x.isNaN then ⟨0x7ff8000000000000⟩ else x

theorem same_comm (x y : Binary64) : x.same y = y.same x := by
  simp only [same, Bool.beq_comm (a := x.bits), Bool.and_comm x.isZero]
  cases x.isNaN <;> cases y.isNaN <;> rfl

theorem same_self (x : Binary64) : x.same x = !x.isNaN := by
  simp [same]

end Binary64

end ObjectModel
