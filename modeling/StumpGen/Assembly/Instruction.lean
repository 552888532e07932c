import StumpGen.Text

/-!
# Target instructions

The target has eight registers and words of 16 bits.  An instruction or a data word takes one
word of the image and one line of the listing; `Instruction.text` is that line without its
label.
-/

namespace StumpGen.Assembly

/-- A register of the target. -/
inductive Reg where
  /-- Always zero. -/
  | r0
  /-- General purpose. -/
  | r1
  /-- General purpose. -/
  | r2
  /-- General purpose. -/
  | r3
  /-- General purpose. -/
  | r4
  /-- The return address. -/
  | r5
  /-- The start of the frame. -/
  | r6
  /-- The program counter. -/
  | r7
  /-- A number that names no register. -/
  | other (index : UInt8)
  deriving DecidableEq, Repr, Inhabited

namespace Reg

/-- The register with a given number. -/
def ofIndex (i : UInt8) : Reg :=
  match i with
  | 0 => .r0
  | 1 => .r1
  | 2 => .r2
  | 3 => .r3
  | 4 => .r4
  | 5 => .r5
  | 6 => .r6
  | 7 => .r7
  | i => .other i

/-- The name in a listing. -/
def name : Reg → Text
  | .r0 => "r0"
  | .r1 => "r1"
  | .r2 => "r2"
  | .r3 => "r3"
  | .r4 => "r4"
  | .r5 => "r5"
  | .r6 => "r6"
  | .r7 => "r7"
  | .other i => "r?" ++ Text.ofNat i.toNat

end Reg

/-- What the shifter does to the second operand. -/
inductive Shift where
  /-- Nothing. -/
  | none
  /-- Shifts right and copies the sign. -/
  | asr
  /-- Rotates right: bit 0 moves to bit 15. -/
  | ror
  /-- Rotates right through the carry. -/
  | rrc
  deriving DecidableEq, Repr, Inhabited

/-- The end of an operand list. -/
def Shift.text : Shift → Text
  | .none => ""
  | .asr => ", asr"
  | .ror => ", ror"
  | .rrc => ", rrc"

/-- The operations of the arithmetic unit. -/
inductive Operation where
  /-- Addition. -/
  | add
  /-- Addition with carry. -/
  | adc
  /-- Subtraction. -/
  | sub
  /-- Subtraction with borrow. -/
  | sbc
  /-- Bitwise and. -/
  | and
  /-- Bitwise or. -/
  | or
  /-- Any other mnemonic. -/
  | other (mnemonic : Text)
  deriving DecidableEq, Repr, Inhabited

/-- The mnemonic of an operation. -/
def Operation.mnemonic : Operation → Text
  | .add => "add"
  | .adc => "adc"
  | .sub => "sub"
  | .sbc => "sbc"
  | .and => "and"
  | .or => "or"
  | .other m => m

/-- What is added to the base of an address. -/
inductive Offset where
  /-- Nothing. -/
  | none
  /-- A register. -/
  | reg (r : Reg)
  /-- A constant. -/
  | imm (v : Int)
  deriving DecidableEq, Repr, Inhabited

/-- The address operand of a load or store. -/
structure Address where
  /-- The register that holds the base. -/
  base : Reg
  /-- What is added to it. -/
  offset : Offset := .none
  /-- The shift of the offset. -/
  shift : Shift := .none
  deriving DecidableEq, Repr, Inhabited

namespace Address

/-- An address in brackets. -/
def text (a : Address) : Text :=
  "[" ++ a.base.name
    ++ (match a.offset with
        | .none => []
        | .reg r => ", " ++ r.name
        | .imm v => ", #" ++ Text.ofInt v)
    ++ a.shift.text ++ "]"

end Address

/-- What one word of the image holds. -/
inductive Instruction where
  /-- A constant. -/
  | data (value : Int)
  /-- The address of a label. -/
  | dataLabel (label : Text)
  /-- Does nothing. -/
  | nop
  /-- An operation on two registers. -/
  | aluReg (op : Operation) (flags : Bool) (dest a b : Reg) (shift : Shift)
  /-- An operation on a register and a constant. -/
  | aluImm (op : Operation) (flags : Bool) (dest a : Reg) (imm : Int)
  /-- Copies a register. -/
  | movReg (flags : Bool) (dest src : Reg) (shift : Shift)
  /-- Loads a constant. -/
  | movImm (dest : Reg) (imm : Int)
  /-- Loads the address of a label. -/
  | movLabel (dest : Reg) (label : Text)
  /-- Compares two registers. -/
  | cmpReg (a b : Reg) (shift : Shift)
  /-- Compares a register with a constant. -/
  | cmpImm (a : Reg) (imm : Int)
  /-- Tests the bits of two registers. -/
  | tstReg (a b : Reg) (shift : Shift)
  /-- Tests the bits of a register against a constant. -/
  | tstImm (a : Reg) (imm : Int)
  /-- Negates a register. -/
  | negReg (dest src : Reg) (shift : Shift)
  /-- Loads from an address. -/
  | load (dest : Reg) (addr : Address)
  /-- Stores to an address. -/
  | store (value : Reg) (addr : Address)
  /-- Loads the word at a label. -/
  | loadLabel (dest : Reg) (label : Text)
  /-- Stores to the word at a label. -/
  | storeLabel (value : Reg) (label : Text)
  /-- Jumps to a label if a condition holds. -/
  | branch (cond label : Text)
  deriving DecidableEq, Repr, Inhabited

namespace Instruction

/-- The mark of an instruction that sets the flags. -/
def flagMark (flags : Bool) : Text := if flags then "s" else ""

/-- An instruction as it stands in a listing. -/
def text : Instruction → Text
  | .data v => "DEFW " ++ Text.ofInt v
  | .dataLabel l => "DEFW " ++ l
  | .nop => "nop"
  | .aluReg op s d a b sh =>
    op.mnemonic ++ flagMark s ++ " " ++ d.name ++ ", " ++ a.name ++ ", " ++ b.name ++ sh.text
  | .aluImm op s d a v =>
    op.mnemonic ++ flagMark s ++ " " ++ d.name ++ ", " ++ a.name ++ ", #" ++ Text.ofInt v
  | .movReg s d a sh => "mov" ++ flagMark s ++ " " ++ d.name ++ ", " ++ a.name ++ sh.text
  | .movImm d v => "mov " ++ d.name ++ ", #" ++ Text.ofInt v
  | .movLabel d l => "mov " ++ d.name ++ ", #" ++ l
  | .cmpReg a b sh => "cmp " ++ a.name ++ ", " ++ b.name ++ sh.text
  | .cmpImm a v => "cmp " ++ a.name ++ ", #" ++ Text.ofInt v
  | .tstReg a b sh => "tst " ++ a.name ++ ", " ++ b.name ++ sh.text
  | .tstImm a v => "tst " ++ a.name ++ ", #" ++ Text.ofInt v
  | .negReg d a sh => "neg " ++ d.name ++ ", " ++ a.name ++ sh.text
  | .load d a => "ld " ++ d.name ++ ", " ++ a.text
  | .store v a => "st " ++ v.name ++ ", " ++ a.text
  | .loadLabel d l => "ld " ++ d.name ++ ", " ++ l
  | .storeLabel v l => "st " ++ v.name ++ ", " ++ l
  | .branch c l => "b" ++ c ++ " " ++ l

/-- `dest = a + b` -/
def addReg (dest a b : Reg) : Instruction := .aluReg .add false dest a b .none

/-- `dest = a + imm` -/
def addImm (dest a : Reg) (imm : Int) : Instruction := .aluImm .add false dest a imm

/-- `dest = a & b` -/
def andReg (dest a b : Reg) : Instruction := .aluReg .and false dest a b .none

/-- `dest = a & imm` -/
def andImm (dest a : Reg) (imm : Int) : Instruction := .aluImm .and false dest a imm

/-- `dest = src` -/
def move (dest src : Reg) : Instruction := .movReg false dest src .none

/-- Jumps to a label. -/
def jump (label : Text) : Instruction := .branch "al" label

/-- Loads from the address in a register. -/
def loadAt (dest base : Reg) : Instruction := .load dest { base }

/-- Loads from the frame of the register `base`. -/
def loadSlot (dest base : Reg) (slot : Int) : Instruction :=
  .load dest { base, offset := .imm slot }

/-- Stores to the address in a register. -/
def storeAt (value base : Reg) : Instruction := .store value { base }

/-- Stores to the frame of the register `base`. -/
def storeSlot (value base : Reg) (slot : Int) : Instruction :=
  .store value { base, offset := .imm slot }

end Instruction

end StumpGen.Assembly
