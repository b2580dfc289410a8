/-!
Texts one after the other with a comma and a space between them.
-/

namespace ObjectModel.Text

def joined : List String → String
  | [] => ""
  | [s] => s
  | s :: t :: rest => s ++ ", " ++ joined (t :: rest)

@[simp] theorem joined_nil : joined [] = "" := rfl
@[simp] theorem joined_singleton (s : String) : joined [s] = s := rfl
@[simp] theorem joined_cons_cons (s t : String) (rest : List String) :
    joined (s :: t :: rest) = s ++ ", " ++ joined (t :: rest) := rfl

end ObjectModel.Text
