import StumpGen.Diagnostic

/-!
# Faults and failures

A `Fault` is what stops a compilation: a code, a message and as much of its place as is known.
`Fault.within` fills in the place as the fault travels outward, and never replaces what is
already known.  A `Failure` is the reason why an operation around a compilation did not
succeed: a fault, another message, or either of them with some context in front.
-/

namespace StumpGen

/-- The reason why a compilation stops. -/
structure Fault where
  /-- What kind of fault it is. -/
  code : Code
  /-- Its text. -/
  message : Text
  /-- Where it lies. -/
  location : Location := {}
  deriving DecidableEq, Repr, Inhabited

namespace Fault

/-- The fault with the unknown parts of its place taken from `outer`. -/
def within (f : Fault) (outer : Location) : Fault := { f with location := f.location.orElse outer }

/-- Place, identifier and message; the place is left out when nothing is known of it. -/
def text (f : Fault) : Text :=
  if f.location.isUnknown then f.code.id ++ ": " ++ f.message
  else f.location.text ++ ": " ++ f.code.id ++ ": " ++ f.message

/-- The fault as an error diagnostic. -/
def diagnostic (f : Fault) : Diagnostic := .error f.code f.location f.message

end Fault

/-- The reason why an operation did not succeed. -/
inductive Failure where
  /-- A fault of the program. -/
  | fault (f : Fault)
  /-- Any other reason. -/
  | plain (message : Text)
  /-- A reason, and what was being done. -/
  | wrapped (context : Text) (inner : Failure)
  deriving DecidableEq, Repr, Inhabited

namespace Failure

/-- The text shown to users: contexts first, with colons between. -/
def text : Failure → Text
  | .fault f => f.text
  | .plain m => m
  | .wrapped c inner => c ++ ": " ++ inner.text

/-- The fault behind a failure, if there is one. -/
def fault? : Failure → Option Fault
  | .fault f => some f
  | .plain _ => none
  | .wrapped _ inner => inner.fault?

/-- The code of the fault behind a failure. -/
def code (e : Failure) : Code := (e.fault?.map Fault.code).getD .unknown

/-- Replaces a failure by the fault behind it, with its place completed; a failure without
one stays as it is. -/
def within (e : Failure) (outer : Location) : Failure :=
  match e.fault? with
  | some f => .fault (f.within outer)
  | none => e

end Failure

end StumpGen
