import ObjectModel.Toml.Scan

/-!
The four forms of strings in TOML: between double or single quotes, on one line or, between three
of them, on several.

Only between double quotes does a backslash escape. On several lines a line end reads as one
newline however it is written, and a quote or two may stand inside the text, also at its end.
-/

namespace ObjectModel.Toml

/-- A way of quoting: its mark, and whether a backslash escapes. -/
structure Quoting where
  mark : Char
  escapes : Bool

namespace Quoting

def basic : Quoting := ⟨'"', true⟩

def literal : Quoting := ⟨'\'', false⟩

def ofMark? (c : Char) : Option Quoting :=
  if c = basic.mark then some basic else if c = literal.mark then some literal else none

/-- The characters that stand for themselves. -/
def admits (q : Quoting) (c : Char) : Bool :=
  isLineChar c && c != q.mark && !(q.escapes && c == '\\')

end Quoting

/-! ### Escapes -/

def hexValue? (c : Char) : Option Nat :=
  if '0' ≤ c ∧ c ≤ '9' then some (c.toNat - '0'.toNat)
  else if 'a' ≤ c ∧ c ≤ 'f' then some (c.toNat - 'a'.toNat + 10)
  else if 'A' ≤ c ∧ c ≤ 'F' then some (c.toNat - 'A'.toNat + 10)
  else none

/-- The number that all the digits write, if they are digits in base sixteen. -/
def hexNumber? (digits : List Char) : Option Nat :=
  digits.foldlM (fun n c => (hexValue? c).map (16 * n + ·)) 0

/-- The character with the code point that the next `n` digits write. -/
def codePoint? (n : Nat) (cs : List Char) : Option (Char × List Char) :=
  if n ≤ cs.length then
    match hexNumber? (cs.take n) with
    | some code => if code.isValidChar then some (Char.ofNat code, cs.drop n) else none
    | none => none
  else none

/-- The character that an escape stands for; its backslash is read already. -/
def escaped? : List Char → Option (Char × List Char)
  | [] => none
  | c :: rest =>
    if c = 'b' then some ('\x08', rest)
    else if c = 't' then some ('\t', rest)
    else if c = 'n' then some ('\n', rest)
    else if c = 'f' then some ('\x0c', rest)
    else if c = 'r' then some ('\r', rest)
    else if c = '"' then some ('"', rest)
    else if c = '\\' then some ('\\', rest)
    else if c = 'u' then codePoint? 4 rest
    else if c = 'U' then codePoint? 8 rest
    else none

theorem length_escaped?_lt {cs rest : List Char} {c : Char} (h : escaped? cs = some (c, rest)) :
    rest.length < cs.length := by
  have point {n : Nat} {ds : List Char} (h : codePoint? n ds = some (c, rest)) :
      rest.length ≤ ds.length := by
    unfold codePoint? at h
    split at h
    · split at h
      · split at h
        · simp only [Option.some.injEq, Prod.mk.injEq] at h
          rw [← h.2, List.length_drop]; omega
        · cases h
      · cases h
    · cases h
  cases cs with
  | nil => simp [escaped?] at h
  | cons d ds =>
    simp only [escaped?] at h
    rw [List.length_cons]
    repeat' split at h
    all_goals first
      | (simp only [Option.some.injEq, Prod.mk.injEq] at h; rw [← h.2]; omega)
      | exact Nat.lt_succ_of_le (point h)
      | cases h

/-! ### Strings -/

/-- The text up to the mark that closes it. -/
def lineBody (q : Quoting) (cs : List Char) : Option (List Char × List Char) :=
  match cs with
  | [] => none
  | c :: rest =>
    if c = q.mark then some ([], rest)
    else if q.admits c then (lineBody q rest).map fun r => (c :: r.1, r.2)
    else if q.escapes && c = '\\' then
      match _h : escaped? rest with
      | some (e, rest') => (lineBody q rest').map fun r => (e :: r.1, r.2)
      | none => none
    else none
termination_by cs.length
decreasing_by
  · simp
  · have := length_escaped?_lt _h; simp; omega

/-- The line end that a backslash joins away, with all the blanks behind it; what follows them. -/
def joinedLine? (cs : List Char) : Option (List Char) :=
  (newline? (skipSpaces cs)).map skipBlank

theorem length_joinedLine?_lt {cs rest : List Char} (h : joinedLine? cs = some rest) :
    rest.length < cs.length := by
  unfold joinedLine? at h
  obtain ⟨ds, hd, rfl⟩ := Option.map_eq_some_iff.1 h
  have h1 := length_newline?_lt hd
  have h2 := length_skipBlank_le ds
  have h3 : (skipSpaces cs).length ≤ cs.length := length_dropWhile_le isSpace cs
  omega

/-- The text up to the three marks that close it; of the marks before them two may belong to it. -/
def blockBody (q : Quoting) (cs : List Char) : Option (List Char × List Char) :=
  match cs with
  | [] => none
  | c :: rest =>
    if c = q.mark then
      let run := (cs.takeWhile (· == q.mark)).length
      if 3 ≤ run then
        let inside := min (run - 3) 2
        some (List.replicate inside q.mark, cs.drop (inside + 3))
      else (blockBody q rest).map fun r => (c :: r.1, r.2)
    else if q.admits c then (blockBody q rest).map fun r => (c :: r.1, r.2)
    else if q.escapes && c = '\\' then
      match _h : joinedLine? rest with
      | some rest' => blockBody q rest'
      | none =>
        match _h : escaped? rest with
        | some (e, rest') => (blockBody q rest').map fun r => (e :: r.1, r.2)
        | none => none
    else
      match _h : newline? (c :: rest) with
      | some rest' => (blockBody q rest').map fun r => ('\n' :: r.1, r.2)
      | none => none
termination_by cs.length
decreasing_by
  · simp
  · simp
  · have := length_joinedLine?_lt _h; simp; omega
  · have := length_escaped?_lt _h; simp; omega
  · exact length_newline?_lt _h

/-- A string on one line. -/
def lineString? : Reader String
  | [] => none
  | c :: rest => do
    let q ← Quoting.ofMark? c
    let (body, rest) ← lineBody q rest
    return (String.ofList body, rest)

/-- A string in any form. A line end right after three opening marks is not part of it. -/
def string? (cs : List Char) : Option (String × List Char) :=
  match cs with
  | a :: b :: c :: rest =>
    if a = b ∧ b = c then do
      let q ← Quoting.ofMark? a
      let (body, rest) ← blockBody q ((newline? rest).getD rest)
      return (String.ofList body, rest)
    else lineString? cs
  | _ => lineString? cs

end ObjectModel.Toml
