import StumpGen.Path

/-!
# Files and the clock

The program reads and writes files, makes directories and looks at the clock.  `Host` is the
list of what it needs of the machine for that, so the same program runs on a real file system
and on one that is a value (`StumpGen.FileTree`).  Each operation says why it did not succeed.
-/

namespace StumpGen

/-- Why an operation on a file did not succeed. -/
inductive FileError.Cause where
  /-- There is nothing at the path. -/
  | missing
  /-- Something on the way is not a directory. -/
  | notDirectory
  /-- The path leads to a directory. -/
  | isDirectory
  /-- There is something at the path. -/
  | taken
  /-- Any other reason. -/
  | other (reason : Text)
  deriving DecidableEq, Repr, Inhabited

/-- The text of a cause. -/
def FileError.Cause.message : FileError.Cause → Text
  | .missing => "no such file or directory"
  | .notDirectory => "not a directory"
  | .isDirectory => "is a directory"
  | .taken => "file exists"
  | .other reason => reason

/-- What was tried on which file, and why it did not succeed. -/
structure FileError where
  /-- The operation. -/
  operation : Text
  /-- The file. -/
  path : Text
  /-- Why. -/
  cause : FileError.Cause
  deriving DecidableEq, Repr, Inhabited

/-- Operation, path and cause. -/
def FileError.message (e : FileError) : Text :=
  e.operation ++ " " ++ e.path ++ ": " ++ e.cause.message

/-- What may be found at a path. -/
inductive FileKind where
  /-- A file with contents. -/
  | file
  /-- A directory. -/
  | directory
  deriving DecidableEq, Repr, Inhabited

/-- What the program needs of the machine it runs on. -/
class Host (m : Type → Type) where
  /-- The contents of a file. -/
  read : Text → m (Except FileError Text)
  /-- Writes a file over what it held before. -/
  write : Text → Text → m (Except FileError Unit)
  /-- Puts a finished file into a place, so that nobody sees half of it. -/
  replace : Text → Text → m (Except FileError Unit)
  /-- Makes a directory in one that exists. -/
  makeDirectory : Text → m (Except FileError Unit)
  /-- What is at a path. -/
  kind : Text → m (Except FileError FileKind)
  /-- Where relative paths start. -/
  workingDirectory : m Text
  /-- The time in nanoseconds. -/
  clock : m Nat

namespace Path

/-- The path in front of the last part, without the slash between them; `none` if there is
nothing but the slash. -/
def above? (p : Text) : Option Text :=
  match ((p.reverse.dropWhile (· = slash)).dropWhile (· ≠ slash)).tail.reverse with
  | [] => none
  | q => some q

/-- A path, the directory that it lies in, the one around that and so on, as far as `fuel`
reaches. -/
def chain : Nat → Text → List Text
  | 0, p => [p]
  | fuel + 1, p =>
    match above? p with
    | none => [p]
    | some q => p :: chain fuel q

/-- A path and all directories above it that it names, the nearest first. -/
def ancestors (p : Text) : List Text := chain p.length p

end Path

namespace Host

variable {m : Type → Type} [Monad m] [Host m]

/-- Makes the first directory of a list inside the second one and so on, starting from the
first one that exists. -/
def makeChain : List Text → m (Except FileError Unit)
  | [] => pure (.ok ())
  | p :: above => do
    match ← kind p with
    | .ok .directory => pure (.ok ())
    | .ok .file => pure (.error ⟨"mkdir", p, .notDirectory⟩)
    | .error _ =>
      match ← makeChain above with
      | .error e => pure (.error e)
      | .ok () =>
        match ← makeDirectory p with
        | .ok () => pure (.ok ())
        | .error e =>
          match ← kind p with
          | .ok .directory => pure (.ok ())
          | _ => pure (.error e)

/-- Makes a directory and those above it, unless they exist. -/
def makeDirectories (p : Text) : m (Except FileError Unit) := makeChain (Path.ancestors p)

end Host

end StumpGen
