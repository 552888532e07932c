import StumpGen.Assembly.Listing
import StumpGen.Trace.Call

/-!
# Emitters

Code generation emits, calls a tracer, keeps a state and may fail.  What was emitted before a
failure is not taken back, and neither are the calls and the state: `Emitted` holds them beside the
result.
-/

namespace StumpGen.Assembly

/-- What a stretch of code generation leaves behind. -/
structure Emitted (ε σ α : Type) where
  /-- What was emitted, also before a failure. -/
  emissions : List Emission
  /-- The state afterwards. -/
  state : σ
  /-- The result, or why there is none. -/
  result : Except ε α
  /-- The calls to the tracer, also before a failure. -/
  calls : List Trace.Call := []

/-- Code generation with a state of type `σ` that may fail with an `ε`. -/
def Emitter (ε σ α : Type) : Type := σ → Emitted ε σ α

namespace Emitter

variable {ε ε' σ α β : Type}

/-- Emits nothing and gives `a`. -/
protected def pure (a : α) : Emitter ε σ α := fun s =>
  { emissions := [], state := s, result := .ok a }

/-- Runs `x`, and `f` on its result unless it failed. -/
protected def bind (x : Emitter ε σ α) (f : α → Emitter ε σ β) : Emitter ε σ β := fun s =>
  let first := x s
  match first.result with
  | .error e => { first with result := .error e }
  | .ok a =>
    let second := f a first.state
    { second with
      emissions := first.emissions ++ second.emissions
      calls := first.calls ++ second.calls }

instance : Monad (Emitter ε σ) where
  pure := Emitter.pure
  bind := Emitter.bind

/-- Fails. -/
def fail (e : ε) : Emitter ε σ α := fun s => { emissions := [], state := s, result := .error e }

/-- The result of a check. -/
def ofExcept (r : Except ε α) : Emitter ε σ α := fun s =>
  { emissions := [], state := s, result := r }

/-- The state. -/
def getState : Emitter ε σ σ := fun s => { emissions := [], state := s, result := .ok s }

/-- Replaces the state. -/
def setState (s : σ) : Emitter ε σ Unit := fun _ =>
  { emissions := [], state := s, result := .ok () }

/-- Emits in order. -/
def emitAll (es : List Emission) : Emitter ε σ Unit := fun s =>
  { emissions := es, state := s, result := .ok () }

/-- Emits a word. -/
def code (i : Instruction) : Emitter ε σ Unit := emitAll [.code i]

/-- Emits words in order. -/
def codes (is : List Instruction) : Emitter ε σ Unit := emitAll (is.map .code)

/-- Emits a label. -/
def label (name : Text) : Emitter ε σ Unit := emitAll [.label name]

/-- Emits a remark. -/
def comment (t : Text) : Emitter ε σ Unit := emitAll [.comment t]

/-- Calls the tracer. -/
def trace (c : Trace.Call) : Emitter ε σ Unit := fun s =>
  { emissions := [], state := s, result := .ok (), calls := [c] }

/-- Changes the failures. -/
def mapError (f : ε → ε') (x : Emitter ε σ α) : Emitter ε' σ α := fun s =>
  let r := x s
  { r with result := r.result.mapError f }

end Emitter

end StumpGen.Assembly
