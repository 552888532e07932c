import StumpGen.Document.Codec
import StumpGen.Host

/-!
# Documents in files

The extension of a file tells its format.  A fault of the contents is placed in the file; that
the file cannot be read at all is a fault without a place.
-/

namespace StumpGen

namespace Document

/-- The fault that a file cannot be read. -/
def unreadable (path : Text) (e : FileError) : Fault :=
  { code := .ioError, message := "read " ++ path ++ ": " ++ e.message }

variable {m : Type → Type} [Monad m] [Host m]

/-- The document in a file. -/
def readFile (path : Text) : m (Except Fault Document) := do
  match Format.ofPath path with
  | .error f => pure (.error f)
  | .ok format =>
    match ← Host.read path with
    | .error e => pure (.error (unreadable path e))
    | .ok contents => pure (ofFile path format contents)

/-- The program in a file. -/
def loadProgram (path : Text) : m (Except Fault Program) := do
  match ← readFile path with
  | .error f => pure (.error f)
  | .ok d => pure (programOf path d)

end Document

end StumpGen
