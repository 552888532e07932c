import StumpGen.CommandLine.Settings
import StumpGen.Diagnostic.Report
import StumpGen.Job
import StumpGen.Switch

/-!
# What is printed

The settings say how a result is reported.  Problems go to the error output and the summary to
the standard output, or all diagnostics go to the standard output as JSON.  A quiet run shows
problems only.
-/

namespace StumpGen

namespace CommandLine

/-- What the program has printed. -/
structure Printed where
  /-- On the standard output. -/
  out : Text := []
  /-- On the error output. -/
  err : Text := []
  deriving DecidableEq, Repr, Inhabited

instance : Append Printed := ⟨fun a b => ⟨a.out ++ b.out, a.err ++ b.err⟩⟩

/-- What the program is connected to. -/
structure Surroundings where
  /-- Whether colours suit the standard output. -/
  out : Bool := false
  /-- Whether colours suit the error output. -/
  err : Bool := false
  /-- Whether the version is painted when it is to be in colour.  A report sets this as it sets
  its own colours. -/
  palette : Bool := false
  deriving DecidableEq, Repr, Inhabited

/-- How results are reported. -/
structure Output where
  /-- Whether as JSON. -/
  json : Bool
  /-- Whether in colour. -/
  color : Bool
  /-- Whether problems only. -/
  quiet : Bool
  /-- Whether with times. -/
  timings : Bool
  /-- How many diagnostics are shown. -/
  maxDiagnostics : Int
  deriving DecidableEq, Repr, Inhabited

/-- What is said of a format that there is not. -/
def unknownFormat (t : Text) : Text :=
  "unsupported format " ++ t.quoted ++ " (must be pretty or json)"

namespace Output

/-- The settings of reports.  Colours are settled first, so they are settled even if the format
is wrong. -/
def ofSettings (s : Settings) (around : Surroundings) : Surroundings × Except Text Output :=
  match Switch.ofColor s.color with
  | .error e => (around, .error e)
  | .ok color =>
    let color := color.resolve around.err
    let around := { around with palette := color }
    let format := s.format.trim.lower
    if format = "pretty" ∨ format = "json" then
      (around, .ok {
        json := format = "json", color, quiet := s.quiet, timings := s.timings,
        maxDiagnostics := s.maxDiagnostics })
    else (around, .error (unknownFormat s.format))

/-- What is printed for a summary or a report of times; nothing for any other diagnostic. -/
def itemText (o : Output) (paths : Report.Paths) (r : Job.Result) (d : Diagnostic) : Printed :=
  let file := paths.show d.location.file
  if d.code = .summary then { out := r.stats.summary file o.color }
  else if d.code = .timings then { err := r.timer.report file }
  else {}

/-- Reports a result; paths are shown from the working directory. -/
def report (o : Output) (cwd : Text) (r : Job.Result) : Printed :=
  let paths : Report.Paths := { cwd, mode := .auto, base := cwd }
  let bag := r.bag.sort
  let problems := bag.atLeast .warning
  if o.json then
    { out := Report.json paths true o.maxDiagnostics (if o.quiet then problems else bag) }
  else
    let shown : Printed := { err := Report.pretty paths o.color true problems }
    if o.quiet then shown
    else bag.items.foldl (fun p d => p ++ o.itemText paths r d) shown

end Output

end CommandLine

end StumpGen
