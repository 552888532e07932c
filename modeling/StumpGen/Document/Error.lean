import StumpGen.Fault
import StumpGen.Text.Quoted
import StumpGen.Toml.Value

/-!
# Why a file is not a document

Faults of this kind lie in the file's format or in the names and types of its fields.
-/

namespace StumpGen

namespace Document

/-- Why a file is not a document. -/
inductive ReadError where
  /-- The text does not follow the rules of TOML. -/
  | toml (e : Toml.Error)
  /-- The bytes are not a MessagePack value, or one of the wrong shape. -/
  | packed
  /-- A packed record has a field that it should not have. -/
  | unknownField (name : Text)
  /-- A field holds something else than it should. -/
  | wrongType
  /-- A literal is given as neither a string nor an integer. -/
  | literalType (type : Text)
  /-- The file has keys that no record has. -/
  | unknownKeys (keys : List Text)
  /-- The format has no reader. -/
  | unsupported (format : Text)
  deriving DecidableEq, Repr, Inhabited

namespace ReadError

/-- The text of an error. -/
def message : ReadError → Text
  | .toml e => e.message
  | .packed => "malformed MessagePack"
  | .unknownField name => "msgpack: unknown field " ++ name.quoted
  | .wrongType => "incompatible types"
  | .literalType type => "literal must be a string or an integer, got " ++ type
  | .unknownKeys ks => "unknown keys: " ++ Text.join ", " ks
  | .unsupported f => "unsupported format " ++ f

/-- An error as a fault: the input is bad. -/
def fault (e : ReadError) : Fault := { code := .badInput, message := e.message }

end ReadError

end Document

end StumpGen
