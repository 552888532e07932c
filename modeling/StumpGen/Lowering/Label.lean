import StumpGen.Text

/-!
# Labels

Globals, functions, labels of programs and labels of the code generator live in families of
their own, so a global, a function and a label may share a name.
-/

namespace StumpGen.Label

/-- The label of a global. -/
def global (name : Text) : Text := "GLOBAL_" ++ name

/-- The label of a function. -/
def function (name : Text) : Text := "FUNC_" ++ name

/-- The label `name` of the function `f`.  A function's name that has an underscore is preceded
by its length, so that the end of it can be told from the label. -/
def user (f name : Text) : Text :=
  if f.contains 95 then "LABEL_" ++ Text.ofNat f.length ++ "_" ++ f ++ "_" ++ name
  else "LABEL_" ++ f ++ "_" ++ name

/-- The `n`-th label of the code generator. -/
def generated (n : Nat) : Text := "autogen_" ++ Text.ofNat n

/-- The loop that a finished program stays in. -/
def exit : Text := "program_exit"

/-- The word that holds the start of the stack. -/
def stackPointer : Text := "stack_start_ptr"

/-- The start of the stack. -/
def stack : Text := "stack_start"

end StumpGen.Label
