import StumpGen.Literal
import StumpGen.Register

/-!
# Programs

A program is a list of elements: globals, which are data, and functions, which are lists of
statements.  All names are texts, and nothing in the types says that they are well formed:
`Name.isValid` does, and the code generator checks what it needs.
-/

namespace StumpGen

/-- Whether a text can stand as a name in a listing: a letter or underscore, then letters,
digits and underscores. -/
def Name.isValid : Text → Bool
  | [] => false
  | b :: t =>
    (Text.isLetter b || b == 95) && t.all fun c => Text.isLetter c || Text.isDigit c || c == 95

/-- An argument of a call. -/
inductive Argument where
  /-- The contents of a variable. -/
  | identifier (name : Text)
  /-- A constant. -/
  | literal (value : Literal)
  /-- The contents of a register. -/
  | register (reg : Register)
  deriving DecidableEq, Repr, Inhabited

/-- A statement of a function. -/
inductive Statement where
  /-- `dest += value` -/
  | addAssignImm (dest : Register) (value : Literal)
  /-- `dest += src` -/
  | addAssignReg (dest src : Register)
  /-- `dest = left + value` -/
  | addImm (dest left : Register) (value : Literal)
  /-- `dest = left + right` -/
  | addReg (dest left right : Register)
  /-- `dest = left & value` -/
  | andImm (dest left : Register) (value : Literal)
  /-- `dest = left & right` -/
  | andReg (dest left right : Register)
  /-- Compares a register with a constant. -/
  | cmpImm (left : Register) (value : Literal)
  /-- Compares two registers. -/
  | cmpReg (left right : Register)
  /-- Tests the bits of a register against a constant. -/
  | testImm (left : Register) (value : Literal)
  /-- Tests the bits of two registers. -/
  | testReg (left right : Register)
  /-- Jumps to a label. -/
  | goto (label : Text)
  /-- Jumps to a label if a condition holds. -/
  | gotoCond (cond label : Text)
  /-- Marks a place to jump to. -/
  | label (name : Text)
  /-- `dest = variable` -/
  | load (dest : Register) (name : Text)
  /-- `dest = &variable` -/
  | loadAddr (dest : Register) (name : Text)
  /-- `dest = [src]` -/
  | loadReg (dest src : Register)
  /-- `dest = [base + offset]` -/
  | loadOffset (dest base offset : Register)
  /-- `variable = src` -/
  | store (name : Text) (src : Register)
  /-- `[addr] = src` -/
  | storeReg (addr src : Register)
  /-- `[base + offset] = value` -/
  | storeOffset (base offset value : Register)
  /-- `dest = value` -/
  | set (dest : Register) (value : Literal)
  /-- `dest = src << amount` -/
  | shiftLeft (dest src : Register) (amount : Literal)
  /-- Calls a function; `out` keeps the value that the callee leaves in it. -/
  | call (callee : Text) (args : List Argument) (out : Register)
  /-- Does nothing. -/
  | nop
  /-- Declares a local variable. -/
  | declare (name : Text)
  /-- Leaves the function. -/
  | leave
  deriving DecidableEq, Repr, Inhabited

/-- A function. -/
structure Function where
  /-- Its name. -/
  name : Text
  /-- The names of its parameters. -/
  params : List Text := []
  /-- Its statements. -/
  body : List Statement := []
  deriving DecidableEq, Repr, Inhabited

namespace Function

/-- The number of parameters. -/
def arity (f : Function) : Nat := f.params.length

end Function

/-- The contents of a global. -/
inductive Data where
  /-- The given words. -/
  | array (values : List Literal)
  /-- As many zeros as the size says. -/
  | block (size : Literal)
  /-- One word. -/
  | literal (value : Literal)
  /-- The code points of a text, and a zero. -/
  | string (text : Text)
  deriving DecidableEq, Repr, Inhabited

/-- A top-level declaration. -/
inductive Element where
  /-- Named data. -/
  | global (name : Text) (data : Data)
  /-- A function. -/
  | function (f : Function)
  deriving DecidableEq, Repr, Inhabited

/-- A program: its declarations in order. -/
abbrev Program := List Element

namespace Program

/-- The functions of a program, in order. -/
def functions (p : Program) : List Function :=
  p.filterMap fun
    | .function f => some f
    | .global _ _ => none

end Program

end StumpGen
