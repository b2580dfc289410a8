import ObjectModel.Value.Basic

/-!
Passes over the members of an object. A pass is what is left of it, so passes do not know of each
other and a finished one stays finished.
-/

namespace ObjectModel

structure Cursor where
  rest : List (String × Value)

namespace Cursor

def start (members : List (String × Value)) : Cursor := ⟨members⟩

def next : Cursor → Option (String × Value) × Cursor
  | ⟨[]⟩ => (none, ⟨[]⟩)
  | ⟨m :: rest⟩ => (some m, ⟨rest⟩)

def left (c : Cursor) : Nat := c.rest.length

/-- Bounds on what is left. -/
def sizeHint (c : Cursor) : Nat × Option Nat := (c.left, some c.left)

/-- What `n` steps give, each with the number of members left after it, and the pass after them. -/
def steps : Nat → Cursor → List (Option (String × Value) × Nat) × Cursor
  | 0, c => ([], c)
  | n + 1, c =>
    let (m, c) := c.next
    let (taken, last) := steps n c
    ((m, c.left) :: taken, last)

theorem next_fst (c : Cursor) : c.next.1 = c.rest.head? := by
  obtain ⟨_ | ⟨m, rest⟩⟩ := c <;> rfl

theorem rest_next (c : Cursor) : c.next.2.rest = c.rest.tail := by
  obtain ⟨_ | ⟨m, rest⟩⟩ := c <;> rfl

end Cursor

end ObjectModel
