import StumpGen.Text

/-!
# Severities and diagnostic codes

A diagnostic carries a number of 16 bits.  The range it lies in gives its severity, and the
severity's letter followed by the number is the identifier that users see (`E1002`).
-/

namespace StumpGen

/-- How grave a diagnostic is, as a rank: the higher, the graver. -/
structure Severity where
  /-- The rank. -/
  rank : UInt8
  deriving DecidableEq, Repr, Inhabited

namespace Severity

/-- Worth knowing. -/
def info : Severity := ⟨0⟩

/-- Suspicious, but the output is usable. -/
def warning : Severity := ⟨1⟩

/-- The output is not usable. -/
def error : Severity := ⟨2⟩

/-- The name shown in reports. -/
def name (s : Severity) : Text :=
  if s = error then "ERROR"
  else if s = warning then "WARNING"
  else if s = info then "INFO"
  else "UNKNOWN"

/-- The letter that starts an identifier. -/
def letter (s : Severity) : Text :=
  if s = error then "E" else if s = warning then "W" else "I"

/-- Whether `s` is at least as grave as `least`. -/
def atLeast (s least : Severity) : Bool := least.rank ≤ s.rank

end Severity

/-- What a diagnostic is about. -/
structure Code where
  /-- The number. -/
  number : UInt16
  deriving DecidableEq, Repr, Inhabited

namespace Code

/-- Nothing is known about the fault. -/
def unknown : Code := ⟨0⟩

/-- A name is declared twice. -/
def duplicateDefinition : Code := ⟨1001⟩

/-- A name is declared nowhere. -/
def unknownIdentifier : Code := ⟨1002⟩

/-- A call passes the wrong number of arguments. -/
def arityMismatch : Code := ⟨1003⟩

/-- A number is out of range for its place. -/
def unsupportedConstant : Code := ⟨1004⟩

/-- The statement has no lowering. -/
def unimplementedFeature : Code := ⟨1005⟩

/-- A literal does not follow its grammar. -/
def malformedLiteral : Code := ⟨1006⟩

/-- The program document is not well formed. -/
def badInput : Code := ⟨1101⟩

/-- A file could not be read or written. -/
def ioError : Code := ⟨1102⟩

/-- The image is larger than the instruction memory. -/
def capacityExceeded : Code := ⟨2001⟩

/-- The entry function is not declared. -/
def entryNotFound : Code := ⟨2002⟩

/-- A summary of a compilation. -/
def summary : Code := ⟨6000⟩

/-- The time that the phases took. -/
def timings : Code := ⟨6001⟩

/-- The severity of a code is given by the range that it lies in. -/
def severity (c : Code) : Severity :=
  if 6000 ≤ c.number then .info else if 2000 ≤ c.number then .warning else .error

/-- The severity's letter and the number with at least four digits. -/
def id (c : Code) : Text := c.severity.letter ++ Text.padZeros 4 (.ofNat c.number.toNat)

/-- The codes that have a title of their own. -/
def titles : List (Code × String) :=
  [(unknown, "Unknown error"),
   (duplicateDefinition, "Duplicate definition"),
   (unknownIdentifier, "Unknown identifier"),
   (arityMismatch, "Call arity mismatch"),
   (unsupportedConstant, "Unsupported constant"),
   (unimplementedFeature, "Feature not implemented"),
   (malformedLiteral, "Malformed literal"),
   (badInput, "Malformed program input"),
   (ioError, "I/O error"),
   (capacityExceeded, "Instruction memory capacity exceeded"),
   (entryNotFound, "Entry function not declared"),
   (summary, "Compilation summary"),
   (timings, "Pipeline timings")]

/-- A short description. -/
def title (c : Code) : Text := (titles.lookup c).getD "Unknown error"

end Code

end StumpGen
