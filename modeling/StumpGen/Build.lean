import StumpGen.Build.Stage
import StumpGen.Job
import StumpGen.Manifest

/-!
# Building a project

A build runs the jobs of all units, one after the other, and a unit that fails does not stop the
others.  The units share the files and the cache.  A unit may read what another one writes, even
the entry that the cache keeps for it, and then the order of the units shows in the results.  A
build reports what happens as it goes (`Build.Event`).
-/

namespace StumpGen

namespace Build

/-- What a build is asked for. -/
structure Request where
  /-- The project. -/
  project : Manifest
  /-- How many diagnostics are kept for each unit. -/
  maxDiagnostics : Int := 0
  /-- Whether diagnostics tell how long the phases took. -/
  timings : Bool := false
  /-- Whether units are built even if their output is up to date. -/
  force : Bool := false
  deriving DecidableEq, Repr, Inhabited

/-- A unit and what its job left behind; there is no result if it did not run. -/
structure UnitResult where
  /-- The unit. -/
  unit : Manifest.Source := {}
  /-- The result of its job. -/
  result : Option Job.Result := none
  deriving Inhabited

/-- Whether a unit did not succeed. -/
def UnitResult.hasFailed (u : UnitResult) : Bool := (u.result.bind Job.Result.fault).isSome

/-- Why a build did not succeed. -/
inductive Error where
  /-- There is nothing to build. -/
  | noRequest
  /-- The cache cannot be opened. -/
  | cache (e : FileError)
  /-- It was called off. -/
  | cancelled
  /-- Some units failed. -/
  | unitsFailed
  deriving DecidableEq, Repr, Inhabited

/-- The text of an error. -/
def Error.message : Error → Text
  | .noRequest => "missing build request"
  | .cache e => "open build cache: " ++ e.message
  | .cancelled => "context canceled"
  | .unitsFailed => "build failed"

/-- What a build leaves behind besides its files. -/
structure Result where
  /-- What was reported, in order. -/
  events : List Event := []
  /-- The units in the order of the project. -/
  units : List UnitResult := []
  /-- How long the stages took. -/
  timings : Timings := {}
  /-- Why it did not succeed. -/
  error : Option Error := none
  deriving Inhabited

/-- The number of units that failed. -/
def Result.failures (r : Result) : Nat := r.units.countP UnitResult.hasFailed

/-! ### Units -/

/-- The job of a unit. -/
def Request.job (r : Request) (cache : Option Cache) (u : Manifest.Source) : Job.Request where
  input := u.input
  output := u.output
  options := {
    org := r.project.target.org, entry := r.project.entryFor u,
    capacity := r.project.target.capacity }
  maxDiagnostics := r.maxDiagnostics
  timings := r.timings
  cache

/-- That a unit waits. -/
def queuedEvent (p : Manifest) (u : Manifest.Source) : Event :=
  { file := p.relative u.input, status := .queued }

/-- What a unit reports while it runs: each stage that it enters, and how it ended. -/
def unitEvents (file : Text) (r : Job.Result) : List Event :=
  let ending : Event :=
    match r.fault with
    | some f => { file, stage := .write, status := .error, failure := some (.fault f) }
    | none => { file, stage := .write, status := if r.cached then .cached else .done }
  r.runs.map (fun run => { file, stage := ⟨run.name⟩, status := .working }) ++ [ending]

/-- Adds the time that the phases of a job took. -/
def Timings.addRuns (t : Timings) (runs : List Job.Run) : Timings :=
  runs.foldl (fun t run => t.add ⟨run.name⟩ run.duration) t

variable {m : Type → Type} [Monad m] [Host m]

/-- Runs the units one after the other. -/
def runUnits (r : Request) (cache : Option Cache) : List Manifest.Source → Result → m Result
  | [], b => pure b
  | u :: us, b => do
    let res ← Job.run (r.job cache u)
    runUnits r cache us { b with
      events := b.events ++ unitEvents (r.project.relative u.input) res
      units := b.units ++ [{ unit := u, result := some res }]
      timings := b.timings.addRuns res.runs }

/-- The cache of a build; there is none if all units are built anyway. -/
def openCache (r : Request) : m (Except FileError (Option Cache)) := do
  if r.force then pure (.ok none)
  else match ← Cache.open? r.project.cacheDirectory with
    | .error e => pure (.error e)
    | .ok c => pure (.ok (some c))

/-- Builds a project.  If the build is called off, no unit runs. -/
def run (r : Request) (cancelled : Bool) : m Result := do
  match ← openCache r with
  | .error e => pure { error := some (.cache e) }
  | .ok cache =>
    let queued : Result := { events := r.project.units.map (queuedEvent r.project) }
    if cancelled then
      pure { queued with
        units := r.project.units.map (fun _ => {}), error := some .cancelled }
    else
      let b ← runUnits r cache r.project.units queued
      pure { b with error := if b.failures = 0 then none else some .unitsFailed }

/-- Builds a project, if one is given. -/
def run? (r : Option Request) (cancelled : Bool) : m Result :=
  match r with
  | none => pure { error := some .noRequest }
  | some r => run r cancelled

end Build

end StumpGen
