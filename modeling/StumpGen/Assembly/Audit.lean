import StumpGen.Text.Blank
import StumpGen.Text.Numeral

/-!
# Checking listings

`Audit.ofText` reads a listing line by line and notes which labels it defines and uses, how
many words it has, and what breaks the rules: there is one origin and it comes first, labels
are defined once, every label stands in front of an instruction, and immediate operands fit
their field.  A line that holds nothing but commas has no first word, and cannot be read.
-/

namespace StumpGen

namespace Audit

/-- A break of the rules. -/
inductive Violation where
  /-- There is more than one origin. -/
  | secondOrigin
  /-- The origin comes after some words. -/
  | lateOrigin (words : Nat)
  /-- A word comes before the origin. -/
  | noOrigin
  /-- A label is defined again. -/
  | duplicate (label : Text) (line : Nat)
  /-- A label stands alone. -/
  | labelsNothing (label : Text)
  /-- Two labels stand on one line. -/
  | twoLabels (first second : Text)
  /-- An immediate operand is too large or too small. -/
  | immediate (value : Int)
  deriving DecidableEq, Repr, Inhabited

/-- The least immediate operand. -/
def minImm : Int := -16

/-- The greatest immediate operand. -/
def maxImm : Int := 15

/-- The text of a violation. -/
def Violation.message : Violation → Text
  | .secondOrigin => "second org"
  | .lateOrigin n => "org after " ++ Text.ofNat n ++ " instructions"
  | .noOrigin => "instruction before org"
  | .duplicate l n => "label " ++ l ++ " already defined on line " ++ Text.ofNat n
  | .labelsNothing l => "label " ++ l ++ " labels nothing"
  | .twoLabels a b => "labels " ++ a ++ " and " ++ b ++ " share a line"
  | .immediate v =>
    "immediate #" ++ Text.ofInt v ++ " outside [" ++ Text.ofInt minImm ++ ", "
      ++ Text.ofInt maxImm ++ "]"

end Audit

/-- What is known of a listing. -/
structure Audit where
  /-- The origin. -/
  origin : Text := []
  /-- Whether the origin was seen, or its absence noted. -/
  originSeen : Bool := false
  /-- The labels, each with the line that defines it. -/
  labels : List (Text × Nat) := []
  /-- The labels in use, each with the first line that uses it. -/
  uses : List (Text × Nat) := []
  /-- The number of words. -/
  instructions : Nat := 0
  /-- The violations with their lines, in order. -/
  violations : List (Nat × Audit.Violation) := []
  deriving DecidableEq, Repr, Inhabited

namespace Audit

/-! ### Words of a line -/

/-- The instructions that may set the flags. -/
def flagForms : List Text := ["add", "adc", "sub", "sbc", "and", "or", "mov"]

/-- The instructions, in the forms without a condition or flags. -/
def mnemonics : List Text :=
  flagForms ++ (["cmp", "tst", "neg", "ld", "st", "nop", "DEFW"] : List Text)

/-- The conditions of a branch. -/
def conditions : List Text :=
  ["al", "nv", "eq", "ne", "cs", "cc", "mi", "pl", "vs", "vc", "hi", "ls", "ge", "lt", "gt", "le"]

/-- The shifts. -/
def shifts : List Text := ["asr", "ror", "rrc"]

/-- Whether a word is an instruction. -/
def isMnemonic (w : Text) : Bool :=
  mnemonics.contains w
    || (w.endsWith "s" && flagForms.contains w.dropLast)
    || (w.head? == some 98 && conditions.contains w.tail)

/-- Whether a word is a register. -/
def isRegister : Text → Bool
  | [a, b] => a == 114 && 48 ≤ b && b ≤ 55
  | _ => false

/-- Whether the byte is a bracket. -/
def isBracket (b : UInt8) : Bool := b == 91 || b == 93

/-- A word without brackets at its ends. -/
def dropBrackets (w : Text) : Text :=
  ((w.dropWhile isBracket).reverse.dropWhile isBracket).reverse

/-- The words of a line; commas count as blanks. -/
def words (line : Text) : List Text := Text.words (line.map fun b => if b = 44 then 32 else b)

/-! ### Steps -/

/-- Notes a violation. -/
def fail (a : Audit) (line : Nat) (v : Violation) : Audit :=
  { a with violations := a.violations ++ [(line, v)] }

/-- Notes the use of a label. -/
def use (a : Audit) (line : Nat) (l : Text) : Audit :=
  if (a.uses.lookup l).isSome then a else { a with uses := a.uses ++ [(l, line)] }

/-- An operand: a number, which is checked if it is immediate, a register, a shift, or a
label. -/
def operand (line : Nat) (a : Audit) (w : Text) : Audit :=
  let w := dropBrackets w
  let immediate := w.head? == some 35
  let w := if immediate then w.tail else w
  match Numeral.readInt 10 w with
  | .ok v =>
    if immediate ∧ (v < minImm ∨ maxImm < v) then a.fail line (.immediate v) else a
  | .error _ => if isRegister w || shifts.contains w || w.isEmpty then a else a.use line w

/-- An instruction with its operands. -/
def instruction (a : Audit) (line : Nat) (operands : List Text) : Audit :=
  let a := if a.originSeen then a else { a.fail line .noOrigin with originSeen := true }
  operands.foldl (operand line) { a with instructions := a.instructions + 1 }

/-- Notes the definition of a label. -/
def define (a : Audit) (line : Nat) (l : Text) : Audit :=
  match a.labels.lookup l with
  | some previous => a.fail line (.duplicate l previous)
  | none => { a with labels := a.labels ++ [(l, line)] }

/-- A line of code; `none` if it has no words. -/
def code (a : Audit) (line : Nat) : List Text → Option Audit
  | [] => none
  | w :: ws =>
    if isMnemonic w then some (a.instruction line ws)
    else
      let a := a.define line w
      match ws with
      | [] => some (a.fail line (.labelsNothing w))
      | v :: vs =>
        if isMnemonic v then some (a.instruction line vs) else some (a.fail line (.twoLabels w v))

/-- An origin. -/
def setOrigin (a : Audit) (line : Nat) (o : Text) : Audit :=
  let a := if a.originSeen then a.fail line .secondOrigin else a
  let a := if 0 < a.instructions then a.fail line (.lateOrigin a.instructions) else a
  { a with originSeen := true, origin := o }

/-- The mark of an origin. -/
def originMark : Text := "org "

/-- One line. -/
def step (a : Audit) (line : Nat) (raw : Text) : Option Audit :=
  let t := raw.trim
  if t = [] ∨ t.head? = some 59 then some a
  else match t.dropPrefix? originMark with
    | some o => some (a.setOrigin line o.trim)
    | none => a.code line (words t)

/-- The lines from a given number on. -/
def steps (a : Audit) (line : Nat) : List Text → Option Audit
  | [] => some a
  | l :: ls => (a.step line l).bind fun a => a.steps (line + 1) ls

/-- What is known of a listing; `none` if a line cannot be read. -/
def ofText (t : Text) : Option Audit := ({} : Audit).steps 1 (t.split 10)

/-- The labels that are used but not defined, in order. -/
def undefined (a : Audit) : List Text :=
  ((a.uses.map Prod.fst).filter fun l => (a.labels.lookup l).isNone).mergeSort
    fun x y => decide (x ≤ y)

/-- The violations as lines of text. -/
def messages (a : Audit) : List Text :=
  a.violations.map fun (n, v) => "line " ++ Text.ofNat n ++ ": " ++ v.message

end Audit

end StumpGen
