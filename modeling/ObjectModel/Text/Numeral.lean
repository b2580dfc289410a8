/-!
Whole numbers in decimal.

A number is written with the fewest digits and a minus sign where it is negative. It is read
from ASCII digits, any number of leading zeros, and one sign where the type allows it; a number
outside its type's range is refused, whatever the length of its text.
-/

namespace ObjectModel.Text

def writeNat (n : Nat) : List Char := Nat.toDigits 10 n

def writeInt (n : Int) : List Char :=
  if n < 0 then '-' :: writeNat n.natAbs else writeNat n.natAbs

/-! ### Reading -/

def digitValue (c : Char) : Nat := c.toNat - '0'.toNat

/-- The number that decimal digits write, the first digit being the highest. -/
def decimalValue (digits : List Char) : Nat :=
  digits.foldl (fun n c => 10 * n + digitValue c) 0

/-- One or more digits and nothing else. -/
def readNat? (cs : List Char) : Option Nat :=
  if cs ≠ [] ∧ cs.all Char.isDigit then some (decimalValue cs) else none

/-- Digits behind at most one plus sign. -/
def readUnsigned? : List Char → Option Nat
  | '+' :: cs => readNat? cs
  | cs => readNat? cs

/-- Digits behind at most one sign. -/
def readSigned? : List Char → Option Int
  | '-' :: cs => (readNat? cs).map fun n => -(n : Int)
  | cs => (readUnsigned? cs).map Int.ofNat

/-- The number in 32 bits, if it fits. -/
def int32? (n : Int) : Option Int32 :=
  if (Int32.ofInt n).toInt = n then some (Int32.ofInt n) else none

/-- The number in 64 bits, if it fits. -/
def int64? (n : Int) : Option Int64 :=
  if (Int64.ofInt n).toInt = n then some (Int64.ofInt n) else none

/-- The number in 64 bits without a sign, if it fits. -/
def uint64? (n : Nat) : Option UInt64 :=
  if (UInt64.ofNat n).toNat = n then some (UInt64.ofNat n) else none

def readInt32? (s : String) : Option Int32 := do int32? (← readSigned? s.toList)

def readInt64? (s : String) : Option Int64 := do int64? (← readSigned? s.toList)

def readUInt64? (s : String) : Option UInt64 := do uint64? (← readUnsigned? s.toList)

end ObjectModel.Text
