import StumpGen.CommandLine.Flag

/-!
# The settings of the program

All flags of all commands in one record, with the lists of flags that the commands take.
-/

namespace StumpGen

namespace CommandLine

/-- What the command line says. -/
structure Settings where
  /-- Where the image starts. -/
  org : Text := "0"
  /-- The size of the instruction memory. -/
  capacity : Int := 8000
  /-- The function that the bootstrap enters. -/
  entry : Text := "main"
  /-- Whether the listing is printed too. -/
  emit : Bool := false
  /-- Whether reports are coloured. -/
  color : Text := "auto"
  /-- Whether only problems are reported. -/
  quiet : Bool := false
  /-- Whether times are reported. -/
  timings : Bool := false
  /-- The format of reports. -/
  format : Text := "pretty"
  /-- How many diagnostics are shown. -/
  maxDiagnostics : Int := 100
  /-- The file for the trace. -/
  trace : Text := []
  /-- How much is traced. -/
  traceLevel : Text := "off"
  /-- Where traced events are kept. -/
  traceMode : Text := "ring"
  /-- How many of them are kept in memory. -/
  traceRingSize : Int := 4096
  /-- The file for a profile of the processor's time. -/
  cpuProfile : Text := []
  /-- The file for a profile of the memory. -/
  memProfile : Text := []
  /-- The file for a trace of the program itself. -/
  runtimeTrace : Text := []
  /-- Whether progress is displayed. -/
  ui : Text := "auto"
  /-- How many units are built at a time. -/
  jobs : Int := 0
  /-- Whether units are built even if they are up to date. -/
  force : Bool := false
  /-- Whether the commit is shown. -/
  hash : Bool := false
  /-- Whether the date is shown. -/
  date : Bool := false
  /-- Whether all that is known of the version is shown. -/
  full : Bool := false
  /-- The format of the version. -/
  versionFormat : Text := "pretty"
  /-- Whether help is wanted. -/
  help : Bool := false
  /-- Whether only the version is wanted. -/
  version : Bool := false
  deriving DecidableEq, Repr, Inhabited

namespace Settings

/-- The flags for compiling one unit. -/
def compileFlags : List (Flag Settings) :=
  [{ name := "org", setter := .text fun s v => { s with org := v },
     purpose := "origin address of the image", standard := "0" },
   { name := "capacity", setter := .number fun s v => { s with capacity := v },
     purpose := "instruction memory capacity in words", standard := "8000" },
   { name := "entry", setter := .text fun s v => { s with entry := v },
     purpose := "function the bootstrap branches to", standard := "main" },
   { name := "emit", setter := .switch fun s v => { s with emit := v },
     purpose := "also print the generated assembly to stdout" }]

/-- The flags for building a project. -/
def buildFlags : List (Flag Settings) :=
  [{ name := "ui", setter := .text fun s v => { s with ui := v },
     purpose := "progress UI (auto|on|off)", standard := "auto" },
   { name := "jobs", setter := .number fun s v => { s with jobs := v },
     purpose := "max parallel units (0=auto)" },
   { name := "force", setter := .switch fun s v => { s with force := v },
     purpose := "rebuild units even when their output is up to date" }]

/-- The flags for showing the version. -/
def versionFlags : List (Flag Settings) :=
  [{ name := "hash", setter := .switch fun s v => { s with hash := v },
     purpose := "include git commit hash" },
   { name := "date", setter := .switch fun s v => { s with date := v },
     purpose := "include build timestamp" },
   { name := "full", setter := .switch fun s v => { s with full := v },
     purpose := "show every recorded bit of build metadata" },
   { name := "format", setter := .text fun s v => { s with versionFormat := v },
     purpose := "output format (pretty|json)", standard := "pretty" }]

/-- The flags that every command takes. -/
def sharedFlags : List (Flag Settings) :=
  [{ name := "color", setter := .text fun s v => { s with color := v },
     purpose := "colorize output (auto|on|off)", standard := "auto" },
   { name := "quiet", setter := .switch fun s v => { s with quiet := v },
     purpose := "suppress non-essential output" },
   { name := "timings", setter := .switch fun s v => { s with timings := v },
     purpose := "show timing information" },
   { name := "format", setter := .text fun s v => { s with format := v },
     purpose := "diagnostics format (pretty|json)", standard := "pretty" },
   { name := "max-diagnostics", setter := .number fun s v => { s with maxDiagnostics := v },
     purpose := "maximum number of diagnostics to show", standard := "100" },
   { name := "trace", setter := .text fun s v => { s with trace := v },
     purpose := "trace output file (- for stderr)" },
   { name := "trace-level", setter := .text fun s v => { s with traceLevel := v },
     purpose := "trace level (off|error|phase|detail|debug)", standard := "off" },
   { name := "trace-mode", setter := .text fun s v => { s with traceMode := v },
     purpose := "trace storage (stream|ring|both)", standard := "ring" },
   { name := "trace-ring-size", setter := .number fun s v => { s with traceRingSize := v },
     purpose := "events kept in memory in ring mode", standard := "4096" },
   { name := "cpu-profile", setter := .text fun s v => { s with cpuProfile := v },
     purpose := "write a CPU profile to file" },
   { name := "mem-profile", setter := .text fun s v => { s with memProfile := v },
     purpose := "write a heap profile to file" },
   { name := "runtime-trace", setter := .text fun s v => { s with runtimeTrace := v },
     purpose := "write a Go runtime trace to file" }]

/-- The flag that asks for help with a command. -/
def helpFlag (command : String) : Flag Settings :=
  { name := "help", letter := some 104, setter := .switch fun s v => { s with help := v },
    purpose := "help for " ++ command }

/-- The flag that asks for the version. -/
def versionFlag (command : String) : Flag Settings :=
  { name := "version", letter := some 118, setter := .switch fun s v => { s with version := v },
    purpose := "version for " ++ command }

end Settings

end CommandLine

end StumpGen
