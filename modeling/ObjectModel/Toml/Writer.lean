import ObjectModel.Text.Joined
import ObjectModel.Toml.Value

/-!
Writing TOML: strings between double quotes, with quotes, backslashes and all controls escaped, so
that every string has a written form on one line.
-/

namespace ObjectModel.Toml

def isControl (c : Char) : Bool := c.toNat < 0x20 || (0x7f ≤ c.toNat && c.toNat < 0xa0)

/-- Four digits in base sixteen. -/
def fourDigits (n : Nat) : List Char :=
  [n / 4096 % 16, n / 256 % 16, n / 16 % 16, n % 16].map Nat.digitChar

def writeChar (c : Char) : List Char :=
  if c = '"' then ['\\', '"']
  else if c = '\\' then ['\\', '\\']
  else if isControl c then '\\' :: 'u' :: fourDigits c.toNat
  else [c]

def writeString (s : String) : String :=
  String.ofList ('"' :: (s.toList.flatMap writeChar ++ ['"']))

def writeBool (b : Bool) : String := if b then "true" else "false"

def writeStrings (ss : List String) : String := "[" ++ Text.joined (ss.map writeString) ++ "]"

end ObjectModel.Toml
