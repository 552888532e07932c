import StumpGen.Instant
import StumpGen.Text.Case
import StumpGen.Text.Quoted

/-!
# Trace events

A trace records what a compilation does: spans, which open and close, and points.  Each event
has a scope, and the level of a trace says which scopes it records.
-/

namespace StumpGen.Trace

/-- What part of the work an event is about, as a depth: the deeper, the finer. -/
structure Scope where
  /-- The depth. -/
  depth : UInt8
  deriving DecidableEq, Repr, Inhabited

namespace Scope

/-- One compilation unit. -/
def driver : Scope := ⟨1⟩

/-- One pass over a program. -/
def pass : Scope := ⟨2⟩

/-- One function. -/
def function : Scope := ⟨3⟩

/-- One statement. -/
def statement : Scope := ⟨4⟩

/-- The name of a scope. -/
def name (s : Scope) : Text :=
  if s = driver then "driver"
  else if s = pass then "pass"
  else if s = function then "function"
  else if s = statement then "stmt"
  else "unknown"

end Scope

/-- How much a trace records. -/
inductive Level where
  /-- Nothing. -/
  | off
  /-- Units and passes, kept for a dump after a failure. -/
  | error
  /-- Units and passes. -/
  | phase
  /-- Functions too. -/
  | detail
  /-- Everything. -/
  | debug
  deriving DecidableEq, Repr, Inhabited

namespace Level

/-- The levels in increasing order. -/
def all : List Level := [.off, .error, .phase, .detail, .debug]

/-- The name of a level. -/
def name : Level → Text
  | .off => "off"
  | .error => "error"
  | .phase => "phase"
  | .detail => "detail"
  | .debug => "debug"

/-- The place of a level in the order. -/
def rank : Level → Nat
  | .off => 0
  | .error => 1
  | .phase => 2
  | .detail => 3
  | .debug => 4

/-- Whether events of a scope are recorded. -/
def records (l : Level) (s : Scope) : Bool :=
  match l with
  | .off => false
  | .error | .phase => s.depth ≤ Scope.pass.depth
  | .detail => s.depth ≤ Scope.function.depth
  | .debug => true

/-- The level with a given name, in any case; no name means no trace. -/
def ofName? (t : Text) : Option Level :=
  if t.isEmpty then some .off else all.find? (·.name = t.lower)

/-- What is said of a name that is no level's. -/
def unknownMessage (t : Text) : Text :=
  "invalid trace level: " ++ t.quoted ++ " (expected: off|error|phase|detail|debug)"

/-- The level with a given name, or what is to be said of the name. -/
def parse (t : Text) : Except Text Level := (ofName? t).elim (.error (unknownMessage t)) .ok

end Level

/-- What happens in an event. -/
inductive Kind where
  /-- A span opens. -/
  | opened
  /-- A span closes. -/
  | closed
  /-- Something happens at once. -/
  | point
  /-- Anything else. -/
  | other
  deriving DecidableEq, Repr, Inhabited

namespace Kind

/-- The name of a kind. -/
def name : Kind → Text
  | .opened => "begin"
  | .closed => "end"
  | .point => "point"
  | .other => "unknown"

/-- The mark of a kind in front of a name. -/
def mark : Kind → Text
  | .opened => "→ "
  | .closed => "← "
  | .point => "• "
  | .other => ""

end Kind

/-- Keyed remarks, in the order of their keys. -/
abbrev Extras := List (Text × Text)

namespace Extras

/-- Sets the remark of a key. -/
def insert (key value : Text) : Extras → Extras
  | [] => [(key, value)]
  | (k, v) :: es =>
    if key = k then (key, value) :: es
    else if key < k then (key, value) :: (k, v) :: es
    else (k, v) :: insert key value es

/-- Keyed remarks from a list; the last one of a key counts. -/
def ofList (l : List (Text × Text)) : Extras := l.foldl (fun es e => insert e.1 e.2 es) []

end Extras

/-- One entry of a trace. -/
structure Event where
  /-- When it was recorded. -/
  time : Instant := {}
  /-- Its number. -/
  seq : Nat := 0
  /-- What happens. -/
  kind : Kind
  /-- What it is about. -/
  scope : Scope
  /-- The span that opens or closes; a point has a number of its own. -/
  span : Nat := 0
  /-- The span around it; zero if there is none. -/
  parent : Nat := 0
  /-- The name of the span or point. -/
  name : Text
  /-- A remark. -/
  detail : Text := []
  /-- Keyed remarks. -/
  extras : Extras := []
  deriving DecidableEq, Repr, Inhabited

end StumpGen.Trace
