import StumpGen.Lowering.Program
import StumpGen.Stats
import StumpGen.Trace.Tracer

/-!
# Compiling programs

`compile` lowers a program to a listing: a bootstrap, the globals' data, the functions and a
word that marks the start of the stack.  The listing is there even if a fault stopped the
compilation; it then ends where the fault was found.
-/

namespace StumpGen

open Assembly

/-- What a compilation is asked for. -/
structure Options where
  /-- Where the image starts; `0` if empty. -/
  org : Text := []
  /-- The function that the bootstrap enters; `main` if empty. -/
  entry : Text := []
  /-- The size of the instruction memory; the default one unless positive. -/
  capacity : Int := 0
  deriving DecidableEq, Repr, Inhabited

namespace Options

/-- The options with defaults in place of what is missing. -/
def effective (o : Options) : Options where
  org := if o.org.isEmpty then "0" else o.org
  entry := if o.entry.isEmpty then "main" else o.entry
  capacity := if o.capacity ≤ 0 then Stats.defaultCapacity else o.capacity

end Options

/-- The result of a compilation. -/
structure Compilation where
  /-- The listing. -/
  listing : Listing
  /-- The size of the instruction memory. -/
  capacity : Int
  /-- What stopped the compilation. -/
  fault : Option Fault
  /-- Warnings, in the order in which they arose. -/
  warnings : List Diagnostic
  /-- The calls to the tracer. -/
  activities : List Trace.Call
  deriving Inhabited

namespace Compilation

/-- The text of the listing. -/
def text (c : Compilation) : Text := c.listing.text

/-- The size of the image. -/
def stats (c : Compilation) : Stats := { instructions := c.listing.words, capacity := c.capacity }

/-! ### Fixed parts of the image -/

/-- The bootstrap: it points `lr` at the exit loop and `sf` at the stack and enters the
program. -/
def prologue (o : Options) : List Emission :=
  [.comment "Autogenerated program using fstump",
   .blank,
   .comment "Setup and jump",
   .origin o.org,
   .code (.movLabel .r5 Label.exit),
   .code (.movLabel .r6 Label.stackPointer),
   .code (.loadAt .r6 .r6),
   .code (.jump (Label.function o.entry)),
   .label Label.stackPointer,
   .code (.dataLabel Label.stack),
   .comment "Loop based noop exit",
   .label Label.exit,
   .code .nop,
   .code (.jump Label.exit)]

/-- The start of the stack, which grows past the end of the image. -/
def epilogue : List Emission :=
  [.blank, .comment "Stack", .label Label.stack, .code (.data 0)]

/-! ### Warnings -/

/-- The warning about an entry function that is not declared. -/
def entryWarning (entry : Text) : Diagnostic :=
  .warning .entryNotFound { element := entry }
    ("entry function " ++ entry
      ++ " is not defined; the bootstrap jumps to an undefined label")

/-- The warning about an image that does not fit. -/
def capacityWarning (s : Stats) : Diagnostic :=
  .warning .capacityExceeded {}
    ("program uses " ++ Text.ofInt s.instructions ++ " words of " ++ Text.ofInt s.capacity
      ++ " (" ++ s.percentage ++ ")")

/-! ### Both passes -/

/-- The listing after some functions, and the calls to the tracer.  The span of a function is closed
in any case, also when a fault has stopped the lowering. -/
def addFunctions (l : Listing) : List Lowering.LoweredFunction → Listing × List Trace.Call
  | [] => (l, [])
  | f :: fs =>
    let l' := l.emitAll f.emissions
    let deferred : List Trace.Call :=
      [.annotating .function "words" (Text.ofNat (l'.words - l.words)), .closing .function []]
    let rest := addFunctions l' fs
    (rest.1, f.calls ++ deferred ++ rest.2)

/-- The first fault among lowered functions. -/
def firstFault (fs : List Lowering.LoweredFunction) : Option Fault := fs.findSome? (·.fault)

end Compilation

open Compilation in
/-- Compiles a program. -/
def compile (p : Program) (options : Options) : Compilation :=
  let o := options.effective
  let collected := Lowering.collect p {}
  let data := (Listing.emitAll {} (prologue o)).emitAll collected.emissions
  let first : List Trace.Call :=
    .opening .pass .pass "collect" [] :: collected.calls ++
      [.annotating .pass "globals" (Text.ofNat collected.state.globals.length),
       .annotating .pass "functions" (Text.ofNat collected.state.functions.length),
       .closing .pass []]
  match collected.result with
  | .error e =>
    { listing := data, capacity := o.capacity, fault := some e, warnings := [],
      activities := first }
  | .ok () =>
    let symbols := collected.state
    let entry := if (symbols.arity? o.entry).isSome then [] else [entryWarning o.entry]
    let functions := Lowering.generate symbols 0 (Program.functions p)
    let (code, calls) := addFunctions data functions
    let second : List Trace.Call :=
      .opening .pass .pass "generate" [] :: calls ++
        [.annotating .pass "words" (Text.ofNat code.words), .closing .pass []]
    let activities := first ++ second
    match firstFault functions with
    | some e =>
      { listing := code, capacity := o.capacity, fault := some e, warnings := entry, activities }
    | none =>
      let listing := code.emitAll epilogue
      let stats : Stats := { instructions := listing.words, capacity := o.capacity }
      let size := if stats.isExceeded then [capacityWarning stats] else []
      { listing, capacity := o.capacity, fault := none, warnings := entry ++ size, activities }

end StumpGen
