import StumpGen.Document
import StumpGen.Fault

/-!
# From documents to programs

`Document.program` turns a document into a program, or says what is wrong with the first
element that is no part of one.  Which fields of a statement are set decides which of the
forms of its operation is meant.  Fields are checked in a fixed order and the first problem is
reported; a problem with an argument of a call goes before one with its other fields.
-/

namespace StumpGen

namespace Document

/-- Why a document is not a program. -/
inductive Error where
  /-- The element at this position has no name. -/
  | unnamed (position : Nat)
  /-- An element's name is no identifier. -/
  | elementName (name : Text)
  /-- An element has no kind. -/
  | noKind (name : Text)
  /-- There is no such kind of element. -/
  | unknownKind (name kind : Text)
  /-- A parameter is no identifier. -/
  | parameterName (name : Text)
  /-- A statement has no operation. -/
  | noOperation
  /-- There is no such operation. -/
  | unknownOperation (op : Text)
  /-- A field that is needed is empty. -/
  | missing (field : Text)
  /-- A field is no identifier. -/
  | notIdentifier (field name : Text)
  /-- A field names no register. -/
  | notRegister (field name : Text)
  /-- An argument sets no field, or more than one. -/
  | argumentFields (position : Nat)
  /-- The name in an argument is no identifier. -/
  | argumentName (position : Nat) (name : Text)
  /-- The register in an argument does not exist. -/
  | argumentRegister (position : Nat) (name : Text)
  deriving DecidableEq, Repr, Inhabited

namespace Error

/-- The text of an error. -/
def message : Error → Text
  | .unnamed i => "element " ++ Text.ofNat i ++ " has no name"
  | .elementName n => "element name " ++ n.quoted ++ " is not a valid identifier"
  | .noKind n => "element " ++ n ++ " has no kind"
  | .unknownKind n k =>
    "element " ++ n ++ " has unknown kind " ++ k.quoted
      ++ " (expected array|block|literal|string|function)"
  | .parameterName n => "parameter " ++ n.quoted ++ " is not a valid identifier"
  | .noOperation => "statement has no op"
  | .unknownOperation op => "unknown op " ++ op.quoted
  | .missing f => "missing " ++ f
  | .notIdentifier f n => f ++ " " ++ n.quoted ++ " is not a valid identifier"
  | .notRegister f n => f ++ ": " ++ Register.unknownMessage n
  | .argumentFields i =>
    "argument " ++ Text.ofNat i ++ " must set exactly one of ident, lit, reg"
  | .argumentName i n =>
    "argument " ++ Text.ofNat i ++ ": " ++ n.quoted ++ " is not a valid identifier"
  | .argumentRegister i n => "argument " ++ Text.ofNat i ++ ": " ++ Register.unknownMessage n

/-- An error as a fault: the input is bad. -/
def fault (e : Error) : Fault := { code := .badInput, message := e.message }

end Error

/-! ### Fields -/

/-- A literal that has to be given. -/
def literal (field : Text) (t : Text) : Except Error Literal :=
  if t = [] then .error (.missing field) else .ok (.ofToken t)

/-- A register that has to be given. -/
def register (field : Text) (t : Text) : Except Error Register :=
  if t = [] then .error (.missing field)
  else match Register.ofName? t with
    | some r => .ok r
    | none => .error (.notRegister field t)

/-- A name that has to be given. -/
def identifier (field : Text) (t : Text) : Except Error Text :=
  if t = [] then .error (.missing field)
  else if Name.isValid t then .ok t
  else .error (.notIdentifier field t)

/-! ### Arguments and statements -/

/-- The argument at a position, counted from one. -/
def Argument.toArgument (position : Nat) (a : Argument) : Except Error StumpGen.Argument :=
  match a.ident, a.lit, a.reg with
  | name@(_ :: _), [], [] =>
    if Name.isValid name then .ok (.identifier name) else .error (.argumentName position name)
  | [], lit@(_ :: _), [] => .ok (.literal (.ofToken lit))
  | [], [], reg@(_ :: _) =>
    match Register.ofName? reg with
    | some r => .ok (.register r)
    | none => .error (.argumentRegister position reg)
  | _, _, _ => .error (.argumentFields position)

namespace Statement

/-- The arguments of a call, numbered from one. -/
def arguments (s : Statement) : Except Error (List StumpGen.Argument) :=
  s.args.zipIdx.mapM fun (a, i) => a.toArgument (i + 1)

/-- The destination. -/
def destReg (s : Statement) : Except Error Register := register "dest" s.dest

/-- The source. -/
def srcReg (s : Statement) : Except Error Register := register "src" s.src

/-- The left operand. -/
def leftReg (s : Statement) : Except Error Register := register "left" s.left

/-- The right operand. -/
def rightReg (s : Statement) : Except Error Register := register "right" s.right

/-- The constant. -/
def constant (s : Statement) : Except Error Literal := literal "value" s.value

/-- The name of a variable or label. -/
def nameField (s : Statement) : Except Error Text := identifier "name" s.name

/-- An addition: in place without a left operand, of a constant without a second register. -/
def addition (s : Statement) : Except Error StumpGen.Statement :=
  if s.left ≠ [] ∧ s.right ≠ [] then
    return .addReg (← s.destReg) (← s.leftReg) (← s.rightReg)
  else if s.left ≠ [] then return .addImm (← s.destReg) (← s.leftReg) (← s.constant)
  else if s.src ≠ [] then return .addAssignReg (← s.destReg) (← s.srcReg)
  else return .addAssignImm (← s.destReg) (← s.constant)

/-- A conjunction with a register, if a right operand is given, or a constant. -/
def conjunction (s : Statement) : Except Error StumpGen.Statement :=
  if s.right ≠ [] then return .andReg (← s.destReg) (← s.leftReg) (← s.rightReg)
  else return .andImm (← s.destReg) (← s.leftReg) (← s.constant)

/-- A comparison with a register, if a right operand is given, or a constant. -/
def comparison (s : Statement) : Except Error StumpGen.Statement :=
  if s.right ≠ [] then return .cmpReg (← s.leftReg) (← s.rightReg)
  else return .cmpImm (← s.leftReg) (← s.constant)

/-- A bit test against a register, if a right operand is given, or a constant. -/
def bitTest (s : Statement) : Except Error StumpGen.Statement :=
  if s.right ≠ [] then return .testReg (← s.leftReg) (← s.rightReg)
  else return .testImm (← s.leftReg) (← s.constant)

/-- A jump, conditional if a condition is given. -/
def jump (s : Statement) : Except Error StumpGen.Statement := do
  let label ← identifier "label" s.label
  if s.cond ≠ [] then return .gotoCond s.cond label else return .goto label

/-- A load of a variable, from a base address, or from an address. -/
def reading (s : Statement) : Except Error StumpGen.Statement :=
  if s.name ≠ [] then return .load (← s.destReg) (← s.nameField)
  else if s.base ≠ [] then
    return .loadOffset (← s.destReg) (← register "base" s.base) (← register "offset" s.offset)
  else return .loadReg (← s.destReg) (← s.srcReg)

/-- A store to a variable, to a base address, or to an address. -/
def writing (s : Statement) : Except Error StumpGen.Statement :=
  if s.name ≠ [] then return .store (← s.nameField) (← s.srcReg)
  else if s.base ≠ [] then
    return .storeOffset (← register "base" s.base) (← register "offset" s.offset) (← s.srcReg)
  else return .storeReg (← register "addr" s.addr) (← s.srcReg)

/-- A call; its arguments are checked first. -/
def invocation (s : Statement) : Except Error StumpGen.Statement := do
  let args ← s.arguments
  let callee ← identifier "func" s.func
  let out ← if s.out = [] then pure .absent else register "out" s.out
  return .call callee args out

/-- The statement that a record stands for. -/
def toStatement (s : Statement) : Except Error StumpGen.Statement :=
  if s.op = "add" then s.addition
  else if s.op = "and" then s.conjunction
  else if s.op = "cmp" then s.comparison
  else if s.op = "test" then s.bitTest
  else if s.op = "goto" then s.jump
  else if s.op = "label" then return .label (← s.nameField)
  else if s.op = "load" then s.reading
  else if s.op = "loadaddr" then return .loadAddr (← s.destReg) (← s.nameField)
  else if s.op = "store" then s.writing
  else if s.op = "set" then return .set (← s.destReg) (← s.constant)
  else if s.op = "lshift" then
    return .shiftLeft (← s.destReg) (← s.srcReg) (← literal "amount" s.amount)
  else if s.op = "call" then s.invocation
  else if s.op = "nop" then return .nop
  else if s.op = "local" then return .declare (← s.nameField)
  else if s.op = "return" then return .leave
  else if s.op = [] then .error .noOperation
  else .error (.unknownOperation s.op)

end Statement

/-! ### Elements -/

/-- An error of a conversion as a fault at a place. -/
def located {α : Type} (place : Location) : Except Error α → Except Fault α
  | .ok a => .ok a
  | .error e => .error (e.fault.within place)

namespace Element

/-- The values of an array. -/
def literals (e : Element) : Except Error (List Literal) :=
  e.values.zipIdx.mapM fun (v, i) => literal ("values[" ++ Text.ofNat i ++ "]") v

/-- The parameters of a function. -/
def parameters (e : Element) : Except Error (List Text) :=
  e.params.mapM fun p => if Name.isValid p then .ok p else .error (.parameterName p)

/-- The statements of a function, numbered from one. -/
def statements (e : Element) : Except Fault (List StumpGen.Statement) :=
  e.body.zipIdx.mapM fun (s, i) =>
    located { element := e.name, statement := i + 1 } s.toStatement

/-- What an element with a valid name declares. -/
def toElement (e : Element) : Except Fault StumpGen.Element :=
  let here {α : Type} : Except Error α → Except Fault α := located { element := e.name }
  if e.kind = "literal" then
    return .global e.name (.literal (← here (literal "value" e.value)))
  else if e.kind = "array" then return .global e.name (.array (← here e.literals))
  else if e.kind = "block" then
    return .global e.name (.block (← here (literal "size" e.size)))
  else if e.kind = "string" then return .global e.name (.string e.text)
  else if e.kind = "function" then do
    let params ← here e.parameters
    return .function { name := e.name, params, body := ← e.statements }
  else if e.kind = [] then here (.error (.noKind e.name))
  else here (.error (.unknownKind e.name e.kind))

/-- What the element at a position, counted from one, declares. -/
def convert (position : Nat) (e : Element) : Except Fault StumpGen.Element :=
  if e.name = [] then .error (Error.unnamed position).fault
  else if Name.isValid e.name then e.toElement
  else .error (Error.elementName e.name).fault

end Element

/-- The program that a document holds. -/
def program (d : Document) : Except Fault Program :=
  d.elements.zipIdx.mapM fun (e, i) => e.convert (i + 1)

end Document

end StumpGen
