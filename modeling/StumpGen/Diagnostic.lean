import StumpGen.Diagnostic.Code

/-!
# Diagnostics

A diagnostic says what was found (`Code`, message), how grave it is and where it lies, with
notes that add to it.
-/

namespace StumpGen

/-- A place in a program: a file, an element of it and a statement of that element.  Unknown
parts are empty, an unknown statement is zero. -/
structure Location where
  /-- The file. -/
  file : Text := []
  /-- The function or global. -/
  element : Text := []
  /-- The statement, counted from one. -/
  statement : Int := 0
  deriving DecidableEq, Repr, Inhabited

namespace Location

/-- Whether nothing is known. -/
def isUnknown (l : Location) : Bool :=
  l.file.isEmpty && l.element.isEmpty && l.statement == 0

/-- The element with the number of the statement. -/
def elementText (l : Location) : Text :=
  if 0 < l.statement then l.element ++ "#" ++ Text.ofInt l.statement else l.element

/-- File and element with a colon between them; a statement is shown only after its
element. -/
def text (l : Location) : Text :=
  if l.element.isEmpty then l.file
  else if l.file.isEmpty then l.elementText
  else l.file ++ ": " ++ l.elementText

/-- The location with its unknown parts taken from `outer`. -/
def orElse (l outer : Location) : Location where
  file := if l.file.isEmpty then outer.file else l.file
  element := if l.element.isEmpty then outer.element else l.element
  statement := if l.statement = 0 then outer.statement else l.statement

end Location

/-- A remark that belongs to a diagnostic. -/
structure Note where
  /-- What it is about. -/
  location : Location
  /-- Its text. -/
  message : Text
  deriving DecidableEq, Repr, Inhabited

/-- Something worth reporting about a program. -/
structure Diagnostic where
  /-- How grave it is. -/
  severity : Severity
  /-- What kind of finding it is. -/
  code : Code
  /-- Its text. -/
  message : Text
  /-- Where it lies. -/
  location : Location := {}
  /-- Further remarks. -/
  notes : List Note := []
  deriving DecidableEq, Repr, Inhabited

namespace Diagnostic

/-- A warning at a location. -/
def warning (code : Code) (location : Location) (message : Text) : Diagnostic :=
  { severity := .warning, code, message, location }

/-- An error at a location. -/
def error (code : Code) (location : Location) (message : Text) : Diagnostic :=
  { severity := .error, code, message, location }

/-- A remark of a code, with the severity that belongs to the code. -/
def remark (code : Code) (location : Location) (message : Text) (notes : List Note) : Diagnostic :=
  { severity := code.severity, code, message, location, notes }

end Diagnostic

end StumpGen
