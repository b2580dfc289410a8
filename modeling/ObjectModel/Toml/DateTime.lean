import ObjectModel.Toml.Number

/-!
Dates and times in TOML. A date that is followed by something that does not begin a time stands
alone.
-/

namespace ObjectModel.Toml

/-- A number of exactly `n` digits. -/
def fixed? (n : Nat) (cs : List Char) : Option (Nat × List Char) :=
  if n ≤ cs.length ∧ (cs.take n).all Char.isDigit then
    some (Text.decimalValue (cs.take n), cs.drop n)
  else none

/-- A number of two digits from `lo` to `hi`. -/
def twoDigits? (lo hi : Nat) (cs : List Char) : Option (Nat × List Char) := do
  let (n, rest) ← fixed? 2 cs
  if lo ≤ n ∧ n ≤ hi then return (n, rest) else none

def daysIn (year month : Nat) : Nat :=
  if month = 2 then
    if year % 4 = 0 ∧ (year % 100 ≠ 0 ∨ year % 400 = 0) then 29 else 28
  else if month = 4 ∨ month = 6 ∨ month = 9 ∨ month = 11 then 30
  else 31

def date? (cs : List Char) : Option (Date × List Char) := do
  let (year, cs) ← fixed? 4 cs
  let (month, cs) ← twoDigits? 1 12 (← after? ['-'] cs)
  let (day, rest) ← twoDigits? 1 (daysIn year month) (← after? ['-'] cs)
  return (⟨year, month, day⟩, rest)

/-- Digits behind a point as billionths; further digits have no say. -/
def billionths (digits : List Char) : Nat :=
  Text.decimalValue ((digits ++ List.replicate 9 '0').take 9)

def secondFraction : List Char → Nat × List Char
  | '.' :: rest =>
    let ds := rest.takeWhile Char.isDigit
    if ds.isEmpty then (0, '.' :: rest) else (billionths ds, rest.dropWhile Char.isDigit)
  | cs => (0, cs)

def time? (cs : List Char) : Option (Time × List Char) := do
  let (hour, cs) ← twoDigits? 0 23 cs
  let (minute, cs) ← twoDigits? 0 59 (← after? [':'] cs)
  let (second, cs) ← twoDigits? 0 60 (← after? [':'] cs)
  let (nanosecond, rest) := secondFraction cs
  return (⟨hour, minute, second, nanosecond⟩, rest)

def offset? : Reader Int
  | [] => none
  | c :: rest =>
    if c = 'Z' ∨ c = 'z' then some (0, rest)
    else if c = '+' ∨ c = '-' then do
      let (hour, cs) ← twoDigits? 0 23 rest
      let (minute, rest) ← twoDigits? 0 59 (← after? [':'] cs)
      let minutes : Int := 60 * hour + minute
      return (if c = '-' then -minutes else minutes, rest)
    else none

/-- The time that belongs to a date, behind the letter or the space between them. -/
def timeOfDate? : Reader (Time × Option Int)
  | [] => none
  | c :: rest =>
    if c = 'T' ∨ c = 't' ∨ c = ' ' then do
      let (t, rest) ← time? rest
      match offset? rest with
      | some (o, rest) => return ((t, some o), rest)
      | none => return ((t, none), rest)
    else none

def dateTime? (cs : List Char) : Option (DateTime × List Char) :=
  match date? cs with
  | some (d, rest) =>
    match timeOfDate? rest with
    | some ((t, o), rest) => some (.both d t o, rest)
    | none => some (.date d, rest)
  | none => (time? cs).map fun r => (.time r.1, r.2)

end ObjectModel.Toml
