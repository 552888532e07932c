import StumpGen.Program

/-!
# Why a program cannot be lowered
-/

namespace StumpGen.Lowering

/-- The least immediate operand. -/
def minImm : Int := -16

/-- The greatest immediate operand. -/
def maxImm : Int := 15

/-- A reason why a program has no lowering. -/
inductive Error where
  /-- Two functions have one name. -/
  | duplicateFunction (name : Text)
  /-- Two globals have one name. -/
  | duplicateGlobal (name : Text)
  /-- The size of a block is negative. -/
  | negativeSize (name : Text) (size : Int)
  /-- A character of a string takes more than a word. -/
  | wideChar (c : Char) (name : Text)
  /-- A literal has no value, or no word. -/
  | literal (e : Literal.Error)
  /-- A register field names no register. -/
  | invalidRegister (r : Register)
  /-- An immediate operand is out of range. -/
  | immediateRange (text : Text)
  /-- A shift amount is out of range. -/
  | shiftRange (text : Text)
  /-- There is no lowering for something. -/
  | unimplemented (what : Text)
  /-- A conditional jump has no condition. -/
  | noCondition (label : Text)
  /-- A name is neither a global nor in the frame. -/
  | unknownVariable (name : Text)
  /-- A place in the frame is out of reach. -/
  | frameIndex (name : Text) (index : Nat)
  /-- A called function is not declared. -/
  | unknownFunction (name : Text)
  /-- A call passes the wrong number of arguments. -/
  | arity (name : Text) (expected got : Nat)
  /-- A call passes more arguments than can be stored. -/
  | tooManyArguments (name : Text) (got : Nat)
  /-- The frame of the calling function is too large to step over. -/
  | frameSize (name : Text) (size : Nat)
  deriving DecidableEq, Repr, Inhabited

namespace Error

/-- The code of an error. -/
def code : Error → Code
  | .duplicateFunction _ | .duplicateGlobal _ => .duplicateDefinition
  | .negativeSize _ _ | .wideChar _ _ | .immediateRange _ | .shiftRange _ | .frameIndex _ _
  | .tooManyArguments _ _ | .frameSize _ _ => .unsupportedConstant
  | .literal e => e.code
  | .invalidRegister _ | .noCondition _ => .badInput
  | .unimplemented _ => .unimplementedFeature
  | .unknownVariable _ | .unknownFunction _ => .unknownIdentifier
  | .arity _ _ _ => .arityMismatch

/-- The text of an error. -/
def message : Error → Text
  | .duplicateFunction n => "function " ++ n ++ " is defined more than once"
  | .duplicateGlobal n => "global " ++ n ++ " is defined more than once"
  | .negativeSize n size => "block " ++ n ++ " has negative size " ++ Text.ofInt size
  | .wideChar c n =>
    "character " ++ Text.quotedChar c ++ " of string " ++ n ++ " does not fit a word"
  | .literal e => e.message
  | .invalidRegister r => "invalid register " ++ r.name
  | .immediateRange t =>
    "immediate " ++ t ++ " is outside [" ++ Text.ofInt minImm ++ ", " ++ Text.ofInt maxImm
      ++ "]; only small immediates are supported here"
  | .shiftRange t => "shift amount " ++ t ++ " is outside [0, " ++ Text.ofInt maxImm ++ "]"
  | .unimplemented what => what ++ " is not implemented"
  | .noCondition l => "conditional goto " ++ l ++ " has no condition"
  | .unknownVariable n => "unknown variable " ++ n
  | .frameIndex n i =>
    "local " ++ n ++ " sits at frame index " ++ Text.ofNat i ++ "; at most "
      ++ Text.ofInt (maxImm + 1) ++ " locals and parameters are addressable"
  | .unknownFunction n => "invalid call to " ++ n ++ ": unknown function"
  | .arity n expected got =>
    "invalid call to " ++ n ++ ": expected " ++ Text.ofNat expected ++ " arguments, got "
      ++ Text.ofNat got
  | .tooManyArguments n got =>
    "call to " ++ n ++ " passes " ++ Text.ofNat got ++ " arguments; at most "
      ++ Text.ofInt (maxImm + 1) ++ " are supported"
  | .frameSize n size =>
    "frame of " ++ n ++ " has " ++ Text.ofNat size ++ " words; calls need at most "
      ++ Text.ofInt maxImm

/-- An error as a fault. -/
def fault (e : Error) : Fault := { code := e.code, message := e.message }

end Error

end StumpGen.Lowering
