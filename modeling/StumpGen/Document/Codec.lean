import StumpGen.Document.Conversion
import StumpGen.Document.Format
import StumpGen.Document.MessagePack
import StumpGen.Document.Toml

/-!
# Reading and writing documents

One reader and one writer for both file formats.
-/

namespace StumpGen

namespace Document

/-- Reads a document. -/
def decode : Format → Text → Except ReadError Document
  | .toml, t => ofToml t
  | .msgpack, t => ofMessagePack t

/-- Writes a document. -/
def encode : Format → Document → Text
  | .toml, d => d.toml
  | .msgpack, d => d.messagePack

/-- The document in a file; faults are placed in the file. -/
def ofFile (path : Text) (format : Format) (contents : Text) : Except Fault Document :=
  match decode format contents with
  | .ok d => .ok d
  | .error e => .error (e.fault.within { file := path })

/-- The program in a document from a file; faults are placed in the file. -/
def programOf (path : Text) (d : Document) : Except Fault Program :=
  match d.program with
  | .ok p => .ok p
  | .error f => .error (f.within { file := path })

end Document

end StumpGen
