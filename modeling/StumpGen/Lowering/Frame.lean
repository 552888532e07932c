import StumpGen.Assembly.Emitter
import StumpGen.Lowering.Error
import StumpGen.Lowering.Label

/-!
# Symbols, frames and operands

The first pass over a program finds its symbols: the globals, and the functions with their
arities.  A function's frame holds its parameters and then its locals, in the order of their
declarations; a name that is declared twice is found at its first place.  A variable is looked
up among the globals first.
-/

namespace StumpGen.Lowering

open Assembly

/-- The names that a program declares. -/
structure Symbols where
  /-- The globals. -/
  globals : List Text := []
  /-- The functions with their arities. -/
  functions : List (Text × Nat) := []
  deriving DecidableEq, Repr, Inhabited

namespace Symbols

/-- Whether a name is a global's. -/
def isGlobal (s : Symbols) (name : Text) : Bool := s.globals.contains name

/-- The arity of a function. -/
def arity? (s : Symbols) (name : Text) : Option Nat := s.functions.lookup name

/-- Declares a global. -/
def addGlobal (s : Symbols) (name : Text) : Symbols := { s with globals := name :: s.globals }

/-- Declares a function. -/
def addFunction (s : Symbols) (f : Function) : Symbols :=
  { s with functions := (f.name, f.arity) :: s.functions }

end Symbols

end StumpGen.Lowering

namespace StumpGen

/-- The locals that a statement declares. -/
def Statement.locals : Statement → List Text
  | .declare name => [name]
  | _ => []

/-- The frame of a function: its parameters, then its locals. -/
def Function.frame (f : Function) : List Text := f.params ++ f.body.flatMap Statement.locals

end StumpGen

namespace StumpGen.Lowering

open Assembly

/-- What the statements of a function can refer to. -/
structure Scope where
  /-- The names that the program declares. -/
  symbols : Symbols
  /-- The name of the function. -/
  function : Text
  /-- The frame of the function. -/
  frame : List Text
  deriving DecidableEq, Repr, Inhabited

/-- The scope inside a function. -/
def Scope.ofFunction (s : Symbols) (f : Function) : Scope where
  symbols := s
  function := f.name
  frame := f.frame

/-- Where a variable lives. -/
inductive Variable where
  /-- At the label of a global. -/
  | global
  /-- At a place in the frame. -/
  | slot (index : Nat)
  deriving DecidableEq, Repr, Inhabited

/-- Finds a variable. -/
def Scope.resolve (sc : Scope) (name : Text) : Except Error Variable :=
  if sc.symbols.isGlobal name then .ok .global
  else match sc.frame.idxOf? name with
    | some i => if (i : Int) ≤ maxImm then .ok (.slot i) else .error (.frameIndex name i)
    | none => .error (.unknownVariable name)

/-- The target register for a register field. -/
def machineReg : Register → Except Error Reg
  | .zero => .ok .r0
  | .r1 => .ok .r1
  | .r2 => .ok .r2
  | .r3 => .ok .r3
  | .r4 => .ok .r4
  | .lr => .ok .r5
  | .sf => .ok .r6
  | .pc => .ok .r7
  | r => .error (.invalidRegister r)

/-- The value of a literal. -/
def literalValue (l : Literal) : Except Error Int := l.value.mapError .literal

/-- The value of a literal that fits an immediate operand. -/
def smallImm (l : Literal) : Except Error Int := do
  let v ← literalValue l
  if minImm ≤ v ∧ v ≤ maxImm then pure v else throw (.immediateRange l.text)

/-- Lowering: it emits, counts the labels it makes up and may fail. -/
abbrev Lower (α : Type) := Emitter Error Nat α

/-- A new label. -/
def fresh : Lower Text := fun n =>
  { emissions := [], state := n + 1, result := .ok (Label.generated n) }

/-- The result of a check. -/
def check {α : Type} (r : Except Error α) : Lower α := Emitter.ofExcept r

end StumpGen.Lowering
