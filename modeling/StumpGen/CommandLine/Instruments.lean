import StumpGen.CommandLine.Output
import StumpGen.Trace.Format

/-!
# Traces and profiles of a run

Work may be traced and profiled.  Files for profiles are made before the work starts, the one
for memory when it is over.  A trace is written to a file or kept in memory; when the work fails,
what is in memory is printed.
-/

namespace StumpGen

namespace CommandLine

/-- How a run is traced. -/
structure Tracing where
  /-- What is recorded, and where. -/
  tracer : Trace.Tracer := {}
  /-- The file for the trace; the error output if it is empty. -/
  path : Text := []

namespace Tracing

/-- The tracing that the settings ask for.  A file without a level means the phases, and it is
written besides what is kept in memory. -/
def ofSettings (s : Settings) : Except Failure Tracing :=
  match Trace.Level.parse s.traceLevel with
  | .error e => .error (.wrapped "invalid trace level" (.plain e))
  | .ok level =>
    if level = .off ∧ s.trace = [] then .ok {}
    else
      let level := if level = .off then .phase else level
      match Trace.Storage.parse s.traceMode with
      | .error e => .error (.wrapped "invalid trace mode" (.plain e))
      | .ok storage =>
        let storage := if s.trace ≠ [] ∧ storage = .ring then .both else storage
        .ok { tracer := .make level storage s.traceRingSize, path := s.trace }

/-- Whether the trace goes to a file. -/
def toFile (t : Tracing) : Bool :=
  t.tracer.stream.isSome && t.path != [] && t.path != [Scan.dash]

/-- The trace as it is written. -/
def streamed (t : Tracing) : Text :=
  match t.tracer.stream with
  | none => []
  | some events =>
    (Trace.Event.renderAll? (Trace.Format.auto.resolve t.path) events.toList).getD []

/-- What is printed when the work fails. -/
def lastEvents (t : Tracing) : Text :=
  match (Trace.Event.renderAll? .text t.tracer.kept).getD [] with
  | [] => []
  | events => "trace: last events before failure" ++ Text.newline ++ events

end Tracing

/-- Work that was done. -/
structure Work (α : Type) where
  /-- What it gave. -/
  value : α
  /-- Whether it did not succeed. -/
  hasFailed : Bool
  /-- The calls to the tracer. -/
  activities : List Trace.Call

variable {m : Type → Type} [Monad m] [Host m]

/-- Makes the file for a profile, if one is wanted. -/
def startProfile (what path : Text) : m (Except Failure Unit) := do
  if path = [] then pure (.ok ())
  else match ← Host.write path [] with
    | .error e => pure (.error (.wrapped what (.plain e.message)))
    | .ok () => pure (.ok ())

/-- Makes the file for the trace, if it goes to one. -/
def startTrace (t : Tracing) : m (Except Failure Unit) := do
  if t.toFile then
    match ← Host.write t.path [] with
    | .error e =>
      pure (.error (.wrapped "failed to create tracer"
        (.wrapped "failed to open trace output" (.plain e.message))))
    | .ok () => pure (.ok ())
  else pure (.ok ())

/-- The present time. -/
def now : m Instant := do
  let n ← Host.clock
  pure { seconds := n / 1000000000, nanos := n % 1000000000 }

/-- Does some work and traces it. -/
def traced {α : Type} (t : Tracing) (work : m (Work α)) : m (Printed × α) := do
  let w ← work
  let t := { t with tracer := { t.tracer with now := ← now }.recordAll 0 w.activities }
  let dump : Text := if w.hasFailed && t.tracer.isEnabled then t.lastEvents else []
  if t.toFile then
    let _ ← Host.write t.path t.streamed
    pure ({ err := dump }, w.value)
  else pure ({ err := dump }, w.value)

/-- Does some work, traced as the settings say. -/
def withTrace {α : Type} (s : Settings) (work : m (Work α)) :
    m (Printed × Except Failure α) := do
  match Tracing.ofSettings s with
  | .error e => pure ({}, .error e)
  | .ok t =>
    match ← startTrace t with
    | .error e => pure ({}, .error e)
    | .ok () => do
      let (printed, a) ← traced t work
      pure (printed, .ok a)

/-- Makes the file for the profile of the memory, if one is wanted. -/
def stopProfiles (s : Settings) : m Printed := do
  match ← startProfile "profiling: heap profile" s.memProfile with
  | .error e => pure { err := e.text ++ Text.newline }
  | .ok () => pure {}

/-- Does some work, traced and profiled as the settings say. -/
def instrumented {α : Type} (s : Settings) (work : m (Work α)) :
    m (Printed × Except Failure α) := do
  match ← startProfile "cpu profile" s.cpuProfile with
  | .error e => pure ({}, .error e)
  | .ok () =>
    match ← startProfile "runtime trace" s.runtimeTrace with
    | .error e => pure ({}, .error e)
    | .ok () => do
      let (printed, r) ← withTrace s work
      pure (printed ++ (← stopProfiles s), r)

end CommandLine

end StumpGen
