import StumpGen.Cache
import StumpGen.Compilation
import StumpGen.Diagnostic.Bag
import StumpGen.Document.File
import StumpGen.Stats.Summary
import StumpGen.Timer

/-!
# One unit from file to file

A job reads a program, compiles it and writes the listing.  It takes up to four steps that
touch files: it loads the program, looks into the cache, writes the listing, and stores an
entry in the cache.  Once code has been generated the listing is written even if a fault stopped
the generation.  Whatever happens there is a `Job.Result`, with all diagnostics and, if the job
did not succeed, the fault that stopped it.
-/

namespace StumpGen

namespace Job

/-- Where a listing goes besides its file. -/
inductive Sink where
  /-- It is kept. -/
  | buffer
  /-- Nothing can be written there. -/
  | closed (reason : Text)
  deriving DecidableEq, Repr, Inhabited

/-- What a job is asked for. -/
structure Request where
  /-- The file with the program. -/
  input : Text
  /-- The file for the listing; none is written if this is empty. -/
  output : Text
  /-- How the program is compiled. -/
  options : Options := {}
  /-- How many diagnostics are kept. -/
  maxDiagnostics : Int := 0
  /-- Where the listing goes besides its file. -/
  sink : Option Sink := none
  /-- Whether a diagnostic tells how long the phases took. -/
  timings : Bool := false
  /-- The cache that may spare the work. -/
  cache : Option Cache := none
  deriving DecidableEq, Repr, Inhabited

namespace Request

/-- The options as one text. -/
def optionsKey (r : Request) : Text :=
  "org=" ++ r.options.org ++ " entry=" ++ r.options.entry ++ " capacity="
    ++ Text.ofInt r.options.capacity

/-- What tells whether an output is up to date: a digest of the input and the options. -/
def fingerprint (r : Request) (contents : Text) : Digest :=
  .combine [.ofText contents, .ofText r.optionsKey]

end Request

/-- A phase that has ended. -/
structure Run where
  /-- Its name. -/
  name : Text
  /-- What it ended with, if it did not succeed. -/
  fault : Option Fault := none
  /-- How long it took. -/
  duration : Duration := {}
  deriving DecidableEq, Repr, Inhabited

/-- A phase as a report shows it. -/
def Run.phase (r : Run) : Phase :=
  { name := r.name, note := if r.fault.isSome then "failed" else "", duration := r.duration }

/-- What a job leaves behind besides its files. -/
structure Result where
  /-- All diagnostics, with the one of the fault that stopped the job. -/
  bag : Bag
  /-- The size of the image. -/
  stats : Stats := {}
  /-- The phases in their order. -/
  runs : List Run := []
  /-- Whether the output was up to date. -/
  cached : Bool := false
  /-- What stopped the job. -/
  fault : Option Fault := none
  /-- What the sink has kept. -/
  emitted : Text := []
  /-- The calls to the tracer. -/
  calls : List Trace.Call
  deriving Inhabited

/-- The phases as a report shows them. -/
def Result.timer (r : Result) : Timer := ⟨r.runs.map Run.phase⟩

/-! ### Diagnostics of a job -/

/-- The summary of an image. -/
def summaryRemark (input : Text) (s : Stats) : Diagnostic :=
  .remark .summary { file := input } s.line []

/-- The report of the phases, in words and as JSON in a note. -/
def timingsRemark (input : Text) (t : Timer) : Diagnostic :=
  let payload : Json := .obj <|
    [Json.field "kind" (.str "unit")]
      ++ Json.fieldIf (!input.isEmpty) "path" (.str input)
      ++ [Json.field "total_ms" (Timer.jsonMillis t.total),
          Json.field "phases" (.arr (t.phases.map Timer.jsonPhase))]
  .remark .timings { file := input } ("timings (unit): total " ++ t.total.text 2 ++ " ms")
    [{ location := {}, message := payload.compact }]

/-- What is known when a job ends. -/
structure Ending where
  /-- Warnings. -/
  warnings : List Diagnostic := []
  /-- The size of the image. -/
  stats : Stats := {}
  /-- The phases. -/
  runs : List Run
  /-- Whether the output was up to date. -/
  cached : Bool := false
  /-- What stopped the job. -/
  fault : Option Fault := none
  /-- What the sink has kept. -/
  emitted : Text := []
  /-- The calls to the tracer so far. -/
  calls : List Trace.Call

/-- The result of a job that ends: after the warnings comes the fault or the summary, and then
the time that the phases took if that is wanted.  The span of the job is closed. -/
def Request.result (r : Request) (e : Ending) : Result :=
  let outcome := match e.fault with
    | some f => f.diagnostic
    | none => summaryRemark r.input e.stats
  let timings :=
    if r.timings then [timingsRemark r.input ⟨e.runs.map Run.phase⟩] else []
  { bag := (Bag.empty r.maxDiagnostics).addAll (e.warnings ++ [outcome] ++ timings)
    stats := e.stats
    runs := e.runs
    cached := e.cached
    fault := e.fault
    emitted := e.emitted
    calls := e.calls ++ [.annotating .job "file" r.input,
      .closing .job (if e.fault.isSome then "failed" else "ok")] }

/-! ### Steps -/

/-- What is known once the program is loaded. -/
structure Loaded where
  /-- The phases so far. -/
  runs : List Run
  /-- The program. -/
  program : Program
  /-- The fingerprint of input and options. -/
  fingerprint : Digest
  /-- The calls to the tracer so far. -/
  calls : List Trace.Call

/-- What is known once code is generated. -/
structure Generated where
  /-- The phases so far. -/
  runs : List Run
  /-- The fingerprint of input and options. -/
  fingerprint : Digest
  /-- The listing, and what was found on the way. -/
  compilation : Compilation
  /-- The calls to the tracer so far. -/
  calls : List Trace.Call

/-- What the sink of a request keeps of a listing. -/
def Request.emitted (r : Request) (text : Text) : Text :=
  if r.sink = some .buffer then text else []

/-- What a job tells the tracer before anything else. -/
def openingCalls : List Trace.Call := [.opening .job .driver "compile" []]

/-- The fault that a file cannot be made. -/
def outputFault (output : Text) (what path : Text) (e : FileError) : Fault :=
  { code := .ioError, message := what ++ " " ++ path ++ ": " ++ e.message,
    location := { file := output } }

variable {m : Type → Type} [Monad m] [Host m]

/-- Runs a phase, and notes how it ended. -/
def timed {α : Type} (name : Text) (act : m (Except Fault α)) : m (Except Fault α × Run) := do
  let before ← Host.clock
  let r ← act
  let after ← Host.clock
  let fault := match r with
    | .error f => some f
    | .ok _ => none
  pure (r, { name, fault, duration := ⟨(after : Int) - before⟩ })

/-- Reads a program; faults are placed in its file. -/
def loadInput (path : Text) : m (Except Fault (Text × Program)) := do
  match Document.Format.ofPath path with
  | .error f => pure (.error (f.within { file := path }))
  | .ok format =>
    match ← Host.read path with
    | .error e => pure (.error ((Document.unreadable path e).within { file := path }))
    | .ok contents =>
      pure <| do
        let d ← Document.ofFile path format contents
        let p ← Document.programOf path d
        return (contents, p)

/-- Writes a listing: first to the sink, then to the output, whose directory is made if
needed. -/
def writeOutput (r : Request) (text : Text) : m (Except Fault Unit) := do
  match r.sink with
  | some (.closed reason) => pure (.error { code := .ioError, message := "emit: " ++ reason })
  | _ =>
    if r.output = [] then pure (.ok ())
    else
      let directory := Path.directory r.output
      match ← Host.makeDirectories directory with
      | .error e => pure (.error (outputFault r.output "create" directory e))
      | .ok () =>
        match ← Host.write r.output text with
        | .error e => pure (.error (outputFault r.output "write" r.output e))
        | .ok () => pure (.ok ())

/-- First step: opens the span of the job and loads the program. -/
def load (r : Request) : m (Except Result Loaded) := do
  let calls := openingCalls
  let (found, run) ← timed "load" (loadInput r.input)
  match found with
  | .error f => pure (.error (r.result { runs := [run], fault := some f, calls }))
  | .ok (contents, program) =>
    pure (.ok { runs := [run], program, fingerprint := r.fingerprint contents, calls })

/-- Second step: looks into the cache, and generates code if the output is not up to date. -/
def check (r : Request) (l : Loaded) : m (Except Result Generated) := do
  match ← Cache.freshIn r.cache r.output l.fingerprint with
  | some e =>
    let stats : Stats := { instructions := e.words, capacity := e.capacity }
    pure (.error (r.result { stats, runs := l.runs, cached := true, calls := l.calls }))
  | none => do
    let c := compile l.program r.options
    let (_, run) ← timed "codegen" (pure (match c.fault with
      | some f => .error f
      | none => .ok c.capacity))
    let calls := l.calls ++ c.activities.map (·.within [.job])
    pure (.ok { runs := l.runs ++ [run], fingerprint := l.fingerprint, compilation := c, calls })

/-- Third step: writes the listing, whether or not it is complete.  A fault of the generation
comes before one of the writing. -/
def write (r : Request) (g : Generated) : m (Except Result Generated) := do
  let c := g.compilation
  let (written, run) ← timed "write" (writeOutput r c.text)
  let runs := g.runs ++ [run]
  let stop (f : Fault) : Result := r.result {
    warnings := c.warnings, stats := c.stats, runs, fault := some f,
    emitted := r.emitted c.text, calls := g.calls }
  match c.fault, written with
  | some f, _ => pure (.error (stop (f.within { file := r.input })))
  | none, .error f => pure (.error (stop f))
  | none, .ok () => pure (.ok { g with runs })

/-- Fourth step: stores an entry in the cache.  That this does not succeed shows in the trace
only. -/
def store (r : Request) (g : Generated) : m Result := do
  let c := g.compilation
  let stored ← Cache.storeIn r.cache {
    output := r.output, fingerprint := g.fingerprint,
    words := c.stats.instructions, capacity := c.stats.capacity }
  let trouble : List Trace.Call := match stored with
    | .error e => [.point .job .driver "cache" e.message]
    | .ok () => []
  pure (r.result {
    warnings := c.warnings, stats := c.stats, runs := g.runs,
    emitted := r.emitted c.text, calls := g.calls ++ trouble })

/-- All steps of a job. -/
def run (r : Request) : m Result := do
  match ← load r with
  | .error res => pure res
  | .ok l =>
    match ← check r l with
    | .error res => pure res
    | .ok g =>
      match ← write r g with
      | .error res => pure res
      | .ok g => store r g

end Job

end StumpGen
