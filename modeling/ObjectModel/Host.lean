import ObjectModel.Record

/-!
Host data as values.

Whole numbers of the host come in three types and become the one type of the language by their low
64 bits, read as signed. An option adds nothing when it is there and is null when it is not.
-/

namespace ObjectModel

/-- Host data over a type of keywords. -/
inductive Host (κ : Type) where
  | unit
  | bool (b : Bool)
  | int32 (n : Int32)
  | int64 (n : Int64)
  | size (n : UInt64)
  | float (x : Binary64)
  | text (s : String)
  | keyword (k : κ)
  | absent
  | present (h : Host κ)

namespace Host

def toValue : Host Keyword → Value
  | unit => .nil
  | bool b => .bool b
  | int32 n => .int n.toInt64
  | int64 n => .int n
  | size n => .int n.toInt64
  | float x => .float x
  | text s => .str s
  | keyword k => .keyword k
  | absent => .null
  | present h => h.toValue

/-- The same data with its keyword registered. -/
def intern {ε : Type} : Host String → Act ε (Host Keyword)
  | unit => pure unit
  | bool b => pure (bool b)
  | int32 n => pure (int32 n)
  | int64 n => pure (int64 n)
  | size n => pure (size n)
  | float x => pure (float x)
  | text s => pure (text s)
  | keyword name => return keyword (← Act.intern name)
  | absent => pure absent
  | present h => return present (← h.intern)

end Host

end ObjectModel
