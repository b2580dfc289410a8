import ObjectModel.Value.Basic

/-!
The values inside a value: the items, members and entries of aggregates, and of a function what it
has captured and what it is bound to.
-/

namespace ObjectModel

/-- What a native function has captured. -/
def Code.captured {κ ν : Type} : Code κ ν → List ν
  | .const v => [v]
  | _ => []

def Body.captured {ν : Type} : Body ν → List ν
  | .builtin _ => []
  | .native _ code => code.captured

def Callable.parts {ν : Type} (f : Callable ν) : List ν := f.body.captured ++ f.receiver?.toList

namespace Value

def parts : Value → List Value
  | list _ items => items
  | object _ members => Entries.values members
  | map _ entries => Entries.values entries
  | function f => f.parts
  | _ => []

/-- `Within v w`: `v` is `w`, or inside a part of it. -/
inductive Within (v : Value) : Value → Prop where
  | refl : Within v v
  | part {u w : Value} (h : Within v u) (hu : u ∈ w.parts) : Within v w

theorem Within.trans {u v w : Value} (h : Within u v) (hw : Within v w) : Within u w := by
  induction hw with
  | refl => exact h
  | part _ hu ih => exact .part ih hu

end Value

end ObjectModel
