import StumpGen.Build
import StumpGen.Build.Progress
import StumpGen.CommandLine.Command
import StumpGen.CommandLine.Instruments
import StumpGen.Version

/-!
# The command line

`CommandLine.run` does what the arguments ask for and says what is printed and how the run ends.
-/

namespace StumpGen

namespace CommandLine

/-- How a run ends. -/
inductive Ending where
  /-- All is well. -/
  | success
  /-- It failed, and what is to be said of it has been printed. -/
  | reported
  /-- It failed, and this is still to be said. -/
  | failure (f : Failure)
  deriving DecidableEq, Repr, Inhabited

/-- What a run leaves behind besides files. -/
structure Outcome where
  /-- What it printed. -/
  printed : Printed := {}
  /-- How it ended. -/
  ending : Ending := .success
  /-- What the next run of the same program is connected to. -/
  around : Surroundings := {}
  deriving DecidableEq, Repr, Inhabited

/-- What a command leaves behind. -/
abbrev Effect := Printed × Ending

/-- A failure that is still to be reported. -/
def failed (f : Failure) : Effect := ({}, .failure f)

/-- A failure with a text that is still to be reported. -/
def failedWith (message : Text) : Effect := failed (.plain message)

/-! ### Showing the version -/

/-- Shows the version. -/
def showVersion (v : Version) (s : Settings) (around : Surroundings) : Effect :=
  let format := s.versionFormat.lower
  let commit := s.hash || s.full
  let date := s.date || s.full
  let known := v.normal
  if format = "json" then ({ out := known.json commit date }, .success)
  else if format ≠ "pretty" then failedWith (unknownFormat s.versionFormat)
  else match Switch.ofColor s.color with
    | .error e => failedWith e
    | .ok color =>
      let number := if color.resolve around.out then v.colored around.palette else known.number
      ({ out := known.lines number commit date }, .success)

variable {m : Type → Type} [Monad m] [Host m]

/-! ### Compiling one unit -/

/-- The job that the settings ask for. -/
def Settings.job (s : Settings) (input output : Text) : Job.Request where
  input
  output
  options := { org := s.org, entry := s.entry, capacity := s.capacity }
  maxDiagnostics := s.maxDiagnostics
  sink := if s.emit then some .buffer else none
  timings := s.timings

/-- Compiles one unit and reports the result. -/
def compileUnit (s : Settings) (o : Output) (input output : Text) : m Effect := do
  if s.capacity ≤ 0 then
    pure (failedWith ("--capacity must be positive, got " ++ Text.ofInt s.capacity))
  else do
    let (printed, r) ← instrumented s do
      let r ← Job.run (s.job input output)
      pure { value := r, hasFailed := r.fault.isSome, activities := r.calls }
    match r with
    | .error f => pure (printed, .failure f)
    | .ok r =>
      let listing : Printed := { out := r.emitted }
      pure (listing ++ printed ++ o.report (← Host.workingDirectory) r,
        if r.fault.isSome then .reported else .success)

/-! ### Building a project -/

/-- Reports the results of a build. -/
def buildReport (o : Output) (cwd : Text) (b : Build.Result) : Printed :=
  let units := (b.units.filterMap (·.result)).foldl (fun p r => p ++ o.report cwd r) {}
  let times : Printed := if o.timings && !o.quiet then { err := b.timings.text } else {}
  units ++ times

/-- How many units failed. -/
def failureLine (b : Build.Result) : Text :=
  Text.ofNat b.failures ++ " of " ++ Text.ofNat b.units.length ++ " units failed" ++ Text.newline

/-- The progress display as a build leaves it. -/
def progressText (p : Manifest) (b : Build.Result) : Text :=
  (Progress.final "fstump build" (p.units.map fun u => p.relative u.input) b.events).view

/-- Builds a project and reports the results.  If progress is displayed, what remains of the
display comes first. -/
def buildProject (s : Settings) (o : Output) (progress : Bool) (p : Manifest) : m Effect := do
  let request : Build.Request :=
    { project := p, maxDiagnostics := o.maxDiagnostics, timings := o.timings, force := s.force }
  let (printed, r) ← instrumented s do
    let b ← Build.run request false
    pure {
      value := b, hasFailed := b.error.isSome,
      activities := b.units.flatMap fun u => (u.result.map Job.Result.calls).getD [] }
  match r with
  | .error f => pure (printed, .failure f)
  | .ok b =>
    let display : Printed := if progress && !o.quiet then { out := progressText p b } else {}
    let report := display ++ printed ++ buildReport o (← Host.workingDirectory) b
    match b.error with
    | none => pure (report, .success)
    | some .unitsFailed =>
      let line : Printed := if o.quiet then {} else { err := failureLine b }
      pure (report ++ line, .reported)
    | some e => pure (report, .failure (.plain e.message))

/-- Looks for the project in or around a directory and builds it. -/
def buildIn (s : Settings) (o : Output) (around : Surroundings) (directory : Text) :
    m Effect := do
  match Switch.ofProgress s.ui with
  | .error e => pure (failedWith e)
  | .ok ui =>
    match ← Manifest.find directory with
    | .error f => pure (failed f)
    | .ok none =>
      let place := Path.absolute (← Host.workingDirectory) directory
      pure (failedWith ("no " ++ Manifest.fileName ++ " found in " ++ place ++ " or its parents"))
    | .ok (some path) =>
      match ← Manifest.load path with
      | .error e => pure (failedWith (e.message path))
      | .ok p => buildProject s o (ui.resolve around.out) p

/-! ### Changing the format of a document -/

/-- Writes a document to a file; its directory is made if needed. -/
def writeFile (path contents : Text) : m (Except FileError Unit) := do
  match ← Host.makeDirectories (Path.directory path) with
  | .error e => pure (.error e)
  | .ok () => Host.write path contents

/-- Reads a document, checks the program in it and writes it in another format. -/
def pack (s : Settings) (input output : Text) : m Effect := do
  match ← Document.readFile input with
  | .error f => pure (failed (.fault f))
  | .ok d =>
    match d.program, Document.Format.ofPath output with
    | .error f, _ => pure (failed (.wrapped input (.fault f)))
    | _, .error f => pure (failed (.fault f))
    | .ok _, .ok format =>
      let contents := d.encode format
      match ← writeFile output contents with
      | .error e => pure (failedWith e.message)
      | .ok () =>
        let line : Text := input ++ " -> " ++ output ++ " (" ++ format.name ++ ", "
          ++ Text.ofNat contents.length ++ " bytes)" ++ Text.newline
        pure (if s.quiet then {} else { out := line }, .success)

/-! ### All commands -/

/-- Does some work that needs to know how results are reported. -/
def reporting (s : Settings) (around : Surroundings) (act : Output → m Effect) : m Outcome := do
  let (around, o) := Output.ofSettings s around
  let (printed, ending) ← match o with
    | .error e => pure (failedWith e)
    | .ok o => act o
  pure { printed, ending, around }

/-- Runs a command with its settings and the other arguments. -/
def execute (v : Version) (around : Surroundings) (c : Command) (s : Settings)
    (args : List Text) : m Outcome := do
  match c with
  | .compile =>
    match args with
    | [input, output] => reporting s around fun o => compileUnit s o input output
    | _ => pure { printed := { out := c.usage }, around }
  | .build =>
    match args with
    | [] => reporting s around fun o => buildIn s o around Path.here
    | [directory] => reporting s around fun o => buildIn s o around directory
    | _ =>
      let message := "accepts at most 1 arg(s), received " ++ Text.ofNat args.length
      pure { ending := .failure (.plain message), around }
  | .pack =>
    match args with
    | [input, output] => do
      let (printed, ending) ← pack s input output
      pure { printed, ending, around }
    | _ =>
      let message := "accepts 2 arg(s), received " ++ Text.ofNat args.length
      pure { ending := .failure (.plain message), around }
  | .version =>
    let (printed, ending) := showVersion v s around
    pure { printed, ending, around }
  | .help => pure { printed := { out := (Command.choose args).1.helpText }, around }
  | .completion => pure { printed := { out := c.helpText }, around }

/-- Does what the arguments ask for. -/
def run (v : Version) (around : Surroundings) (args : List Text) : m Outcome := do
  let (c, rest) := Command.choose args
  match parse c.flags {} rest with
  | .error e => pure { ending := .failure (.plain e.message), around }
  | .ok (s, others) =>
    if s.help then pure { printed := { out := c.helpText }, around }
    else if s.version then
      pure { printed := { out := v.shortLine }, around }
    else execute v around c s others

end CommandLine

end StumpGen
