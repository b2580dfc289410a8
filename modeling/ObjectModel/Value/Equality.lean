import ObjectModel.Value.Basic

/-!
Equality as the language has it: scalars, strings and keywords by value, numbers with a fraction by
the rule of binary64, everything else by identity. Values of different kinds are never equal.
-/

namespace ObjectModel

/-- The same body, not merely one that does the same. -/
def Body.same {ν : Type} : Body ν → Body ν → Bool
  | .builtin b, .builtin c => b == c
  | .native i _, .native j _ => i == j
  | _, _ => false

/-- The same body, and bound in the same binding or not at all. -/
def Callable.same {ν : Type} (f g : Callable ν) : Bool :=
  f.body.same g.body &&
    match f.receiver, g.receiver with
    | none, none => true
    | some (i, _), some (j, _) => i == j
    | _, _ => false

namespace Value

def same : Value → Value → Bool
  | nil, nil => true
  | null, null => true
  | bool a, bool b => a == b
  | int a, int b => a == b
  | float a, float b => a.same b
  | str a, str b => a == b
  | keyword a, keyword b => a == b
  | list i _, list j _ => i == j
  | object i _, object j _ => i == j
  | map i _, map j _ => i == j
  | function f, function g => f.same g
  | _, _ => false

instance : BEq Value := ⟨same⟩

theorem beq_def (a b : Value) : (a == b) = a.same b := rfl

/-- Lists of equal length whose items are equal one by one. -/
def sameItems : List Value → List Value → Bool
  | [], [] => true
  | a :: as, b :: bs => a == b && sameItems as bs
  | _, _ => false

end Value

end ObjectModel
