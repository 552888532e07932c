import StumpGen.CommandLine

/-!
# The program

Files, the clock and the terminal of the machine, and the entry of the program.
-/

namespace StumpGen

namespace Machine

/-- A text as a string; bytes that are no UTF-8 make it empty. -/
def string (t : Text) : String := (String.fromUTF8? ⟨t.toArray⟩).getD ""

/-- The cause behind an error of the operating system. -/
def cause : IO.Error → FileError.Cause
  | .noFileOrDirectory .. => .missing
  | .alreadyExists .. => .taken
  | .inappropriateType _ code details =>
    if code = 21 then .isDirectory else if code = 20 then .notDirectory else .other details
  | e => .other (toString e)

/-- Tries an operation on a file. -/
def attempt {α : Type} (operation path : Text) (act : IO α) : IO (Except FileError α) := do
  try
    return .ok (← act)
  catch e => return .error ⟨operation, path, cause e⟩

/-- The contents of a file. -/
def read (p : Text) : IO (Except FileError Text) := do
  match ← attempt "open" p (IO.FS.Handle.mk (string p) .read) with
  | .error e => return .error e
  | .ok h => attempt "read" p do return (← h.readBinToEnd).toList

/-- Whether a path leads to a file or a directory. -/
def kind (p : Text) : IO (Except FileError FileKind) := do
  match ← attempt "stat" p (IO.FS.Handle.mk (string p) .read) with
  | .error e => return .error e
  | .ok h =>
    match ← attempt "read" p (h.read 1) with
    | .ok _ => return .ok .file
    | .error _ => return .ok .directory

/-- Writes a file. -/
def write (p contents : Text) : IO (Except FileError Unit) :=
  attempt "open" p (IO.FS.writeBinFile (string p) ⟨contents.toArray⟩)

/-- Writes a file next to another one and moves it into its place. -/
def replace (p contents : Text) : IO (Except FileError Unit) := do
  let unfinished := Path.join (Path.directory p) ("tmp-" ++ Text.ofNat (← IO.monoNanosNow))
  match ← write unfinished contents with
  | .error e => return .error e
  | .ok () =>
    attempt "rename" (unfinished ++ " " ++ p) (IO.FS.rename (string unfinished) (string p))

instance : Host IO where
  read := read
  write := write
  replace := replace
  makeDirectory p := attempt "mkdir" p (IO.FS.createDir (string p))
  kind := kind
  workingDirectory := return Text.ofString (← IO.currentDir).toString
  clock := IO.monoNanosNow

/-- The terminal that the program is connected to. -/
def surroundings : IO CommandLine.Surroundings := do
  let plain := ((← IO.getEnv "NO_COLOR").getD "") ≠ ""
  let out ← (← IO.getStdout).isTty
  let err ← (← IO.getStderr).isTty
  return { out := out && !plain, err := err && !plain, palette := out && !plain }

end Machine

end StumpGen

open StumpGen in
/-- Runs the command line; the exit status tells whether all is well. -/
def main (args : List String) : IO UInt32 := do
  let o ← CommandLine.run (m := IO) {} (← Machine.surroundings) (args.map Text.ofString)
  (← IO.getStdout).write ⟨o.printed.out.toArray⟩
  let stderr ← IO.getStderr
  stderr.write ⟨o.printed.err.toArray⟩
  match o.ending with
  | .success => return 0
  | .reported => return 1
  | .failure f =>
    stderr.write ⟨("error: " ++ f.text ++ Text.newline).toArray⟩
    return 1
