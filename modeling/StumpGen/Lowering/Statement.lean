import StumpGen.Lowering.Frame

/-!
# Lowering statements

Most statements are one instruction.  A constant that does not fit an immediate operand, and
the address of a global, are kept in a word between the instructions, which execution jumps
over (`embed`).  A store to a global borrows a register for the address and parks its old
contents in such a word.

A call lays out the callee's frame behind the caller's:

* `sf + 0 … sf + n - 1`: the caller's frame of `n` words,
* `sf + n … sf + n + 4`: the saved registers `r1 … r4`, `lr`,
* `sf + n + 5 …`: the callee's frame, its arguments first.

All checks of a statement come before its first word, except that the arguments of a call are
lowered one by one.
-/

namespace StumpGen.Lowering

open Assembly Emitter

/-! ### Constants and variables -/

/-- Jumps over a word and loads it into a register. -/
def embed (dest : Reg) (word : Instruction) : Lower Unit := do
  let after ← fresh
  code (.jump after)
  let slot ← fresh
  label slot
  code word
  label after
  code (.loadLabel dest slot)

/-- Puts a constant into a register. -/
def setConstant (dest : Reg) (v : Int) : Lower Unit :=
  if minImm ≤ v ∧ v ≤ maxImm then code (.movImm dest v)
  else do
    let v ← check ((Literal.checkWord v).mapError .literal)
    embed dest (.data v)

/-- Puts the address of a global into a register. -/
def globalAddress (dest : Reg) (name : Text) : Lower Unit :=
  embed dest (.dataLabel (Label.global name))

/-- Loads a variable. -/
def loadVariable (sc : Scope) (dest : Reg) (name : Text) : Lower Unit := do
  match ← check (sc.resolve name) with
  | .global =>
    comment ("Loading global " ++ name ++ " into " ++ dest.name)
    globalAddress dest name
    code (.loadAt dest dest)
  | .slot i =>
    comment ("Loading local " ++ name ++ " into " ++ dest.name)
    code (.loadSlot dest .r6 i)

/-- Loads the address of a variable. -/
def loadAddress (sc : Scope) (dest : Reg) (name : Text) : Lower Unit := do
  match ← check (sc.resolve name) with
  | .global =>
    comment ("Loading address of global " ++ name ++ " into " ++ dest.name)
    globalAddress dest name
  | .slot i =>
    comment ("Loading address of local " ++ name ++ " into " ++ dest.name)
    code (.addImm dest .r6 i)

/-- Stores a register to a global by way of a borrowed register. -/
def storeGlobal (name : Text) (src : Reg) : Lower Unit := do
  let scratch : Reg := if src = .r5 then .r1 else .r5
  let after ← fresh
  code (.jump after)
  let addr ← fresh
  label addr
  code (.dataLabel (Label.global name))
  let saved ← fresh
  label saved
  code (.data 0)
  label after
  codes [.storeLabel scratch saved, .loadLabel scratch addr, .storeAt src scratch,
    .loadLabel scratch saved]

/-- Stores a register to a variable. -/
def storeVariable (sc : Scope) (name : Text) (src : Reg) : Lower Unit := do
  match ← check (sc.resolve name) with
  | .global =>
    comment ("Storing " ++ src.name ++ " to global " ++ name)
    storeGlobal name src
  | .slot i =>
    comment ("Storing " ++ src.name ++ " into local " ++ name)
    code (.storeSlot src .r6 i)

/-! ### Calls -/

/-- The registers that a call saves, in the order of their places. -/
def savedRegs : List Reg := [.r1, .r2, .r3, .r4, .r5]

/-- The places of the saved registers with the registers. -/
def savedSlots : List (Reg × Nat) := savedRegs.zipIdx

/-- Loads an argument into `r1` while `sf` stands at the callee's frame. -/
def loadArgument (sc : Scope) : Argument → Lower Unit
  | .identifier name => do
    match ← check (sc.resolve name) with
    | .global =>
      globalAddress .r1 name
      code (.loadAt .r1 .r1)
    | .slot i =>
      let n := sc.frame.length
      code (.addImm .r6 .r6 (-5))
      if 0 < n then code (.addImm .r6 .r6 (-n))
      code (.loadSlot .r1 .r6 i)
      if 0 < n then code (.addImm .r6 .r6 n)
      code (.addImm .r6 .r6 5)
  | .literal l => do
    let v ← check (literalValue l)
    setConstant .r1 v
  | .register r => do
    let m ← check (machineReg r)
    match savedSlots.lookup m with
    | some slot => code (.loadSlot .r1 .r6 ((slot : Int) - 5))
    | none => fail (.unimplemented ("passing " ++ r.name ++ " as an argument"))

/-- Loads and stores the arguments from the `k`-th on. -/
def passArguments (sc : Scope) (k : Nat) : List Argument → Lower Unit
  | [] => pure ()
  | a :: as => do
    loadArgument sc a
    code (.storeSlot .r1 .r6 k)
    passArguments sc (k + 1) as

/-- What has to hold before a call emits anything; the result is the register that is not
restored. -/
def checkCall (sc : Scope) (callee : Text) (args : List Argument) (out : Register) :
    Except Error (Option Reg) := do
  match sc.symbols.arity? callee with
  | none => throw (.unknownFunction callee)
  | some arity =>
    if args.length ≠ arity then throw (.arity callee arity args.length)
    if maxImm + 1 < args.length then throw (.tooManyArguments callee args.length)
    if maxImm < sc.frame.length then throw (.frameSize sc.function sc.frame.length)
    if out = .absent then pure none else some <$> machineReg out

/-- Saves the registers behind a frame of `n` words and steps to the callee's frame. -/
def saveRegisters (n : Nat) : Lower Unit := do
  code (.addImm .r6 .r6 n)
  codes (savedSlots.map fun (r, slot) => .storeSlot r .r6 slot)
  code (.addImm .r6 .r6 5)

/-- Jumps to a function, with the address of `resume` in `lr`. -/
def enter (callee : Text) : Lower Text := do
  let target ← fresh
  let resume ← fresh
  let back ← fresh
  codes [.loadLabel .r5 back, .loadLabel .r1 target, .move .r7 .r1]
  label target
  code (.dataLabel (Label.function callee))
  label back
  code (.dataLabel resume)
  pure resume

/-- Steps back to the caller's frame of `n` words and restores the registers but `out`. -/
def restoreRegisters (n : Nat) (out : Option Reg) : Lower Unit := do
  code (.addImm .r6 .r6 (-5))
  codes ((savedSlots.filter fun (r, _) => some r ≠ out).map fun (r, slot) =>
    .loadSlot r .r6 slot)
  code (.addImm .r6 .r6 (-n))

/-- Calls a function. -/
def lowerCall (sc : Scope) (callee : Text) (args : List Argument) (out : Register) :
    Lower Unit := do
  let kept ← check (checkCall sc callee args out)
  comment ("Calling function " ++ callee)
  comment "Saving registers"
  saveRegisters sc.frame.length
  if !args.isEmpty then comment "Copying arguments"
  passArguments sc 0 args
  comment "Jumping"
  let resume ← enter callee
  comment "Restoring registers"
  label resume
  restoreRegisters sc.frame.length kept

/-! ### All statements -/

/-- Doubles a register `k` times on the way from `src` to `dest`. -/
def doublings (dest src : Reg) : Nat → List Instruction
  | 0 => [.move dest src]
  | k + 1 => .addReg dest src src :: List.replicate k (.addReg dest dest dest)

/-- The amount of a left shift. -/
def shiftAmount (l : Literal) : Except Error Nat := do
  let k ← literalValue l
  if 0 ≤ k ∧ k ≤ maxImm then pure k.toNat else throw (.shiftRange l.text)

/-- Lowers a statement. -/
def lowerStatement (sc : Scope) : Statement → Lower Unit
  | .addAssignImm dest value => do
    let d ← check (machineReg dest)
    let v ← check (smallImm value)
    comment ("Adding " ++ Text.ofInt v ++ " to " ++ d.name)
    code (.addImm d d v)
  | .addAssignReg dest src => do
    let d ← check (machineReg dest)
    let s ← check (machineReg src)
    comment ("Adding " ++ s.name ++ " to " ++ d.name)
    code (.addReg d d s)
  | .addImm _ _ _ | .addReg _ _ _ => fail (.unimplemented "three-operand add")
  | .andImm dest left value => do
    let d ← check (machineReg dest)
    let l ← check (machineReg left)
    let v ← check (smallImm value)
    comment ("Anding " ++ l.name ++ " with " ++ Text.ofInt v ++ " to " ++ d.name)
    code (.andImm d l v)
  | .andReg dest left right => do
    let d ← check (machineReg dest)
    let l ← check (machineReg left)
    let r ← check (machineReg right)
    comment ("Anding " ++ l.name ++ " with " ++ r.name ++ " to " ++ d.name)
    code (.andReg d l r)
  | .cmpImm left value => do
    let l ← check (machineReg left)
    let v ← check (smallImm value)
    comment ("Comparing " ++ l.name ++ " with " ++ Text.ofInt v)
    code (.cmpImm l v)
  | .cmpReg left right => do
    let l ← check (machineReg left)
    let r ← check (machineReg right)
    comment ("Comparing " ++ l.name ++ " with " ++ r.name)
    code (.cmpReg l r .none)
  | .testImm _ _ | .testReg _ _ => fail (.unimplemented "test")
  | .goto target => code (.jump (Label.user sc.function target))
  | .gotoCond cond target =>
    if cond.isEmpty then fail (.noCondition target)
    else code (.branch cond (Label.user sc.function target))
  | .label name => do
    comment ("User label " ++ name)
    label (Label.user sc.function name)
    code .nop
  | .load dest name => do
    let d ← check (machineReg dest)
    loadVariable sc d name
  | .loadAddr dest name => do
    let d ← check (machineReg dest)
    loadAddress sc d name
  | .loadReg dest src => do
    let d ← check (machineReg dest)
    let s ← check (machineReg src)
    comment ("Loading address " ++ s.name ++ " to " ++ d.name)
    code (.loadAt d s)
  | .loadOffset dest base offset => do
    let d ← check (machineReg dest)
    let b ← check (machineReg base)
    let o ← check (machineReg offset)
    comment ("Loading from " ++ b.name ++ " offset by " ++ o.name ++ " to " ++ d.name)
    code (.load d { base := b, offset := .reg o })
  | .store name src => do
    let s ← check (machineReg src)
    storeVariable sc name s
  | .storeReg addr src => do
    let a ← check (machineReg addr)
    let s ← check (machineReg src)
    comment ("Storing " ++ s.name ++ " to addr in " ++ a.name)
    code (.storeAt s a)
  | .storeOffset base offset value => do
    let b ← check (machineReg base)
    let o ← check (machineReg offset)
    let v ← check (machineReg value)
    comment ("Storing " ++ v.name ++ " to " ++ b.name ++ " offset by " ++ o.name)
    code (.store v { base := b, offset := .reg o })
  | .set dest value => do
    let d ← check (machineReg dest)
    let v ← check (literalValue value)
    comment ("Setting " ++ d.name ++ " to " ++ Text.ofInt v)
    setConstant d v
  | .shiftLeft dest src amount => do
    let d ← check (machineReg dest)
    let s ← check (machineReg src)
    let k ← check (shiftAmount amount)
    comment ("Left shifting " ++ s.name ++ " by " ++ Text.ofNat k ++ " into " ++ d.name)
    codes (doublings d s k)
  | .call callee args out => lowerCall sc callee args out
  | .nop => code .nop
  | .declare _ => pure ()
  | .leave => fail (.unimplemented "return")

end StumpGen.Lowering
