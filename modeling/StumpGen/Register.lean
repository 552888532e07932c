import StumpGen.Text.Blank
import StumpGen.Text.Case
import StumpGen.Text.Quoted

/-!
# Registers in programs

Programs name eight registers.  A register field may also be empty, and a program built by
hand may hold an index that names none.
-/

namespace StumpGen

/-- A register field of a statement. -/
inductive Register where
  /-- No register is given. -/
  | absent
  /-- Always zero. -/
  | zero
  /-- General purpose. -/
  | r1
  /-- General purpose. -/
  | r2
  /-- General purpose. -/
  | r3
  /-- General purpose. -/
  | r4
  /-- The return address. -/
  | lr
  /-- The start of the frame. -/
  | sf
  /-- The program counter. -/
  | pc
  /-- An index that names no register. -/
  | undefined (index : UInt8)
  deriving DecidableEq, Repr, Inhabited

namespace Register

/-- The registers that exist, in the order of their indices. -/
def all : List Register := [.zero, .r1, .r2, .r3, .r4, .lr, .sf, .pc]

/-- The name in programs. -/
def name : Register → Text
  | .absent => ""
  | .zero => "zero"
  | .r1 => "r1"
  | .r2 => "r2"
  | .r3 => "r3"
  | .r4 => "r4"
  | .lr => "lr"
  | .sf => "sf"
  | .pc => "pc"
  | .undefined i => "reg(" ++ Text.ofNat i.toNat ++ ")"

/-- Whether the field names a register. -/
def isValid : Register → Bool
  | .absent | .undefined _ => false
  | _ => true

/-- The index of a field: zero for an empty one, then the registers from one on. -/
def index : Register → UInt8
  | .absent => 0
  | .zero => 1
  | .r1 => 2
  | .r2 => 3
  | .r3 => 4
  | .r4 => 5
  | .lr => 6
  | .sf => 7
  | .pc => 8
  | .undefined i => i

/-- The field with a given index. -/
def ofIndex (i : UInt8) : Register :=
  if i = 0 then .absent else (all.find? (·.index = i)).getD (.undefined i)

/-- The register with a given name; case and blanks at the ends do not count. -/
def ofName? (t : Text) : Option Register := all.find? (·.name = t.trim.lower)

/-- What is said of a name that is no register's. -/
def unknownMessage (t : Text) : Text :=
  "unknown register " ++ t.quoted ++ " (expected zero|r1|r2|r3|r4|lr|sf|pc)"

end Register

end StumpGen
