import StumpGen.Lowering.Statement
import StumpGen.Text.Composed

/-!
# Lowering programs

The first pass (`collect`) goes over the elements, registers every name and emits the data of
the globals.  The second pass (`generate`) lowers the functions in order.  Both stop at the
first fault, and keep what was emitted before it.
-/

namespace StumpGen

namespace Compilation

/-- The name of a kind of statement in a trace. -/
def statementKind : Statement → Text
  | .addAssignImm _ _ => "*ast.AddAssignImm"
  | .addAssignReg _ _ => "*ast.AddAssignReg"
  | .addImm _ _ _ => "*ast.AddImm"
  | .addReg _ _ _ => "*ast.AddReg"
  | .andImm _ _ _ => "*ast.AndImm"
  | .andReg _ _ _ => "*ast.AndReg"
  | .cmpImm _ _ => "*ast.CmpImm"
  | .cmpReg _ _ => "*ast.CmpReg"
  | .testImm _ _ => "*ast.TestImm"
  | .testReg _ _ => "*ast.TestReg"
  | .goto _ => "*ast.Goto"
  | .gotoCond _ _ => "*ast.GotoCond"
  | .label _ => "*ast.Label"
  | .load _ _ => "*ast.Load"
  | .loadAddr _ _ => "*ast.LoadAddr"
  | .loadReg _ _ => "*ast.LoadReg"
  | .loadOffset _ _ _ => "*ast.LoadOffset"
  | .store _ _ => "*ast.Store"
  | .storeReg _ _ => "*ast.StoreReg"
  | .storeOffset _ _ _ => "*ast.StoreOffset"
  | .set _ _ => "*ast.Set"
  | .shiftLeft _ _ _ => "*ast.LShift"
  | .call _ _ _ => "*ast.Call"
  | .nop => "*ast.Nop"
  | .declare _ => "*ast.Local"
  | .leave => "*ast.Return"

end Compilation

namespace Lowering

open Assembly Emitter

/-! ### The data of globals -/

/-- A word of data. -/
def dataWord (l : Literal) : Except Error Int := l.word.mapError .literal

/-- The words of the listed literals, and what is wrong with the first bad one. -/
def arrayWords : List Literal → List Int × Option Error
  | [] => ([], none)
  | l :: ls =>
    match dataWord l with
    | .error e => ([], some e)
    | .ok v => let rest := arrayWords ls; (v :: rest.1, rest.2)

/-- The words of the characters of the string `name`, a zero at their end, and what is wrong
with the first bad one. -/
def stringWords (name : Text) : List Rune → List Int × Option Error
  | [] => ([0], none)
  | r :: rs =>
    if (r.code : Int) ≤ Literal.maxWord then
      let rest := stringWords name rs
      ((r.code : Int) :: rest.1, rest.2)
    else ([], some (.wideChar r.char name))

/-- The words of the global `name`, up to the first fault. -/
def dataWords (name : Text) : Data → List Int × Option Error
  | .array values => arrayWords values
  | .block size =>
    match dataWord size with
    | .error e => ([], some e)
    | .ok n => if n < 0 then ([], some (.negativeSize name n)) else (List.replicate n.toNat 0, none)
  | .literal value =>
    match dataWord value with
    | .error e => ([], some e)
    | .ok v => ([v], none)
  | .string text => stringWords name text.composed.runes

/-! ### The first pass -/

/-- The first pass: it keeps the symbols found so far. -/
abbrev Collect (α : Type) := Emitter Fault Symbols α

/-- Registers a function. -/
def collectFunction (f : Function) : Collect Unit := do
  let s ← getState
  if (s.arity? f.name).isSome then
    fail ((Error.duplicateFunction f.name).fault.within { element := f.name })
  else setState (s.addFunction f)

/-- Registers a global and emits its data, up to the first fault. -/
def collectGlobal (name : Text) (data : Data) : Collect Unit := do
  let s ← getState
  if s.isGlobal name then fail (Error.duplicateGlobal name).fault
  else do
    setState (s.addGlobal name)
    emitAll [.blank, .comment ("Global " ++ name), .label (Label.global name)]
    let words := dataWords name data
    codes (words.1.map .data)
    match words.2 with
    | none => pure ()
    | some e => fail (e.fault.within { element := name })

/-- Registers an element and emits its data. -/
def collectElement : Element → Collect Unit
  | .function f => collectFunction f
  | .global name data => collectGlobal name data

/-- The first pass over a list of elements. -/
def collect : List Element → Collect Unit
  | [] => pure ()
  | e :: es => do
    collectElement e
    collect es

/-! ### The second pass -/

/-- Lowers the statements from the `k`-th on, with a blank line in front of each but those that
follow a declaration. -/
def lowerBody (sc : Scope) (k : Nat) (afterLocal : Bool) : List Statement → Emitter Fault Nat Unit
  | [] => pure ()
  | st :: sts => do
    if !afterLocal then emitAll [.blank]
    trace (.point .function .statement ("stmt#" ++ Text.ofNat k) (Compilation.statementKind st))
    (lowerStatement sc st).mapError fun e =>
      e.fault.within { element := sc.function, statement := k }
    lowerBody sc (k + 1) (!st.locals.isEmpty) sts

/-- Lowers a function.  Its span is left open. -/
def lowerFunction (s : Symbols) (f : Function) : Emitter Fault Nat Unit := do
  trace (.opening .function .function ("func:" ++ f.name) [.pass])
  emitAll [.blank, .blank, .comment ("--- Function " ++ f.name ++ " Start ---"),
    .label (Label.function f.name)]
  lowerBody (.ofFunction s f) 1 false f.body
  comment "Jumping back"
  code (.move .r7 .r5)
  comment ("--- Function " ++ f.name ++ " End ---")

/-- What the second pass did with a function. -/
structure LoweredFunction where
  /-- The function. -/
  function : Function
  /-- What was emitted. -/
  emissions : List Emission
  /-- What stopped the lowering. -/
  fault : Option Fault
  /-- The calls to the tracer. -/
  calls : List Trace.Call
  deriving Repr, Inhabited

/-- The second pass: the functions that were tried, the last of them with a fault if there is
one.  `n` is the number of labels made up so far. -/
def generate (s : Symbols) (n : Nat) : List Function → List LoweredFunction
  | [] => []
  | f :: fs =>
    let r := lowerFunction s f n
    match r.result with
    | .error e =>
      [{ function := f, emissions := r.emissions, fault := some e, calls := r.calls }]
    | .ok () =>
      { function := f, emissions := r.emissions, fault := none, calls := r.calls }
        :: generate s r.state fs

end Lowering

end StumpGen
