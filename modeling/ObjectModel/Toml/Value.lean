import ObjectModel.Entries
import ObjectModel.Number.Shortest

/-!
What a TOML document holds.
-/

namespace ObjectModel.Toml

structure Date where
  year : Nat
  month : Nat
  day : Nat
deriving DecidableEq

structure Time where
  hour : Nat
  minute : Nat
  second : Nat
  nanosecond : Nat
deriving DecidableEq

/-- A date, a time of day, or both with or without an offset from UTC in minutes. -/
inductive DateTime where
  | date (d : Date)
  | time (t : Time)
  | both (d : Date) (t : Time) (offset : Option Int)
deriving DecidableEq

/-- A number with a fraction or an exponent, as it is written. -/
inductive Real where
  | finite (negative : Bool) (magnitude : Decimal)
  | infinite (negative : Bool)
  | nan
deriving DecidableEq

inductive Value where
  | string (s : String)
  | integer (n : Int64)
  | real (x : Real)
  | boolean (b : Bool)
  | dateTime (d : DateTime)
  | array (items : List Value)
  | table (members : List (String × Value))

end ObjectModel.Toml
