import StumpGen.Fault
import StumpGen.Path
import StumpGen.Text.Case

/-!
# File formats of documents

A document is kept as TOML, which people write, or as MessagePack, which programs write.  The
extension of a file's name tells which.
-/

namespace StumpGen

namespace Document

/-- How a document is written. -/
inductive Format where
  /-- Text with named tables. -/
  | toml
  /-- Binary maps and arrays. -/
  | msgpack
  deriving DecidableEq, Repr, Inhabited

namespace Format

/-- The name of a format. -/
def name : Format → Text
  | .toml => "toml"
  | .msgpack => "msgpack"

/-- The format that an extension stands for; its case does not count. -/
def ofExtension? (ext : Text) : Option Format :=
  if ext.lower = ".toml" then some .toml
  else if ext.lower = ".mp" ∨ ext.lower = ".msgpack" then some .msgpack
  else none

/-- What is said of a file whose name does not tell its format. -/
def unknownFault (path : Text) : Fault :=
  { code := .badInput
    message := "cannot tell the format of " ++ path
      ++ " (expected .toml, .mp or .msgpack)" }

/-- The format of the file at a path. -/
def ofPath (path : Text) : Except Fault Format :=
  match ofExtension? (Path.extension path) with
  | some f => .ok f
  | none => .error (unknownFault path)

end Format

end Document

end StumpGen
