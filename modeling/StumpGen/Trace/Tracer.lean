import StumpGen.Trace.Call
import StumpGen.Trace.Format
import StumpGen.Trace.Ring

/-!
# Tracers

A tracer writes the events of its level to a stream, keeps them in a ring, or both.  Every
record takes the next sequence number, so an event that goes to both takes two.

`Session.perform` makes a call of traced code.  The code keeps the spans it opened, also those that
the level leaves out; in a context these do not count, so that what is opened there comes into the
next span around them.
-/

namespace StumpGen.Trace

/-- Where a tracer keeps its events. -/
inductive Storage where
  /-- They are written at once. -/
  | stream
  /-- They are kept in a ring. -/
  | ring
  /-- Both. -/
  | both
  deriving DecidableEq, Repr, Inhabited

namespace Storage

/-- The kinds of storage. -/
def all : List Storage := [.stream, .ring, .both]

/-- The name of a kind of storage. -/
def name : Storage → Text
  | .stream => "stream"
  | .ring => "ring"
  | .both => "both"

/-- The storage with a given name, in any case. -/
def ofName? (t : Text) : Option Storage := all.find? (·.name = t.lower)

/-- What is said of a name that is no storage's. -/
def unknownMessage (t : Text) : Text :=
  "invalid storage mode: " ++ t.quoted ++ " (expected: stream|ring|both)"

/-- The storage with a given name, or what is to be said of the name. -/
def parse (t : Text) : Except Text Storage := (ofName? t).elim (.error (unknownMessage t)) .ok

/-- Whether events are written to a stream. -/
def streams : Storage → Bool
  | .ring => false
  | _ => true

/-- Whether events are kept in a ring. -/
def buffers : Storage → Bool
  | .stream => false
  | _ => true

end Storage

/-- The state of a trace. -/
structure Tracer where
  /-- How much is recorded. -/
  level : Level := .off
  /-- The events written to the stream, if there is one. -/
  stream : Option (Array Event) := none
  /-- The events kept in memory, if they are. -/
  ring : Option Ring := none
  /-- The last sequence number. -/
  seq : Nat := 0
  /-- The last span number. -/
  spans : Nat := 0
  /-- The time of the events to come. -/
  now : Instant := {}
  deriving Repr, Inhabited

/-- A span that was opened, with what its end will say.  A span that is not recorded has the
number zero. -/
structure Span where
  /-- Its number. -/
  id : Nat := 0
  /-- The span around it. -/
  parent : Nat := 0
  /-- What it is about. -/
  scope : Scope := .driver
  /-- Its name. -/
  name : Text := []
  /-- Its keyed remarks. -/
  extras : Extras := []
  deriving DecidableEq, Repr, Inhabited

namespace Tracer

/-- A tracer for a level and a kind of storage.  With the level `off` it has nowhere to
write. -/
def make (level : Level) (storage : Storage) (ringSize : Int) : Tracer :=
  if level = .off then {}
  else {
    level
    stream := if storage.streams then some #[] else none
    ring := if storage.buffers then some (.empty ringSize) else none }

/-- A tracer for a kind of storage that may be missing, which only the level `off` allows. -/
def make? (level : Level) (storage : Option Storage) (ringSize : Int) : Except Text Tracer :=
  match storage with
  | some s => .ok (make level s ringSize)
  | none => if level = .off then .ok {} else .error "unknown storage mode: unknown"

/-- Whether the tracer records anything. -/
def isEnabled (t : Tracer) : Bool := t.level != .off

/-- Writes an event to the stream. -/
def toStream (t : Tracer) (e : Event) : Tracer :=
  match t.stream with
  | none => t
  | some es => { t with seq := t.seq + 1, stream := some (es.push { e with seq := t.seq + 1 }) }

/-- Keeps an event in the ring. -/
def toRing (t : Tracer) (e : Event) : Tracer :=
  match t.ring with
  | none => t
  | some r => { t with seq := t.seq + 1, ring := some (r.push { e with seq := t.seq + 1 }) }

/-- Records an event, if its scope is recorded. -/
def emit (t : Tracer) (e : Event) : Tracer :=
  if t.level.records e.scope then (t.toStream e).toRing e else t

/-- Opens a span. -/
def opening (t : Tracer) (scope : Scope) (name : Text) (parent : Nat) : Span × Tracer :=
  if t.level.records scope then
    let id := t.spans + 1
    ({ id, parent, scope, name },
      { t with spans := id }.emit
        { time := t.now, kind := .opened, scope, span := id, parent, name })
  else ({}, t)

/-- Closes a span. -/
def closing (t : Tracer) (s : Span) (detail : Text) : Tracer :=
  if s.id = 0 then t
  else t.emit { time := t.now, kind := .closed, scope := s.scope, span := s.id,
                parent := s.parent, name := s.name, detail, extras := s.extras }

/-- Sets a keyed remark of a span.  The ends of the span that the ring holds share its remarks,
unless the span had none when it was closed. -/
def annotate (t : Tracer) (s : Span) (key value : Text) : Span × Tracer :=
  if s.id = 0 then (s, t)
  else
    ({ s with extras := s.extras.insert key value },
      { t with ring := t.ring.map (·.modify fun e =>
          if e.kind = .closed ∧ e.span = s.id ∧ e.extras ≠ [] then
            { e with extras := e.extras.insert key value }
          else e) })

/-- Records a point. -/
def point (t : Tracer) (scope : Scope) (name detail : Text) (parent : Nat) : Tracer :=
  if t.level.records scope then
    let id := t.spans + 1
    { t with spans := id }.emit
      { time := t.now, kind := .point, scope, span := id, parent, name, detail }
  else t

end Tracer

/-! ### Calls -/

/-- A tracer with the spans of those who call it. -/
structure Session where
  /-- The tracer. -/
  tracer : Tracer
  /-- The span that each holder opened last. -/
  held : Holder → Span := fun _ => {}

namespace Session

/-- The span around work that is done in a context: the innermost one that is recorded, or the span
`ambient` in which everything happens. -/
def current (s : Session) (ambient : Nat) : Context → Nat
  | [] => ambient
  | h :: context => if (s.held h).id = 0 then s.current ambient context else (s.held h).id

/-- A holder gets a span from the tracer. -/
def hold (s : Session) (h : Holder) (given : Span × Tracer) : Session :=
  { tracer := given.2, held := fun h' => if h' = h then given.1 else s.held h' }

/-- Makes a call. -/
def perform (ambient : Nat) (s : Session) : Call → Session
  | .opening h scope name context =>
    s.hold h (s.tracer.opening scope name (s.current ambient context))
  | .annotating h key value => s.hold h (s.tracer.annotate (s.held h) key value)
  | .closing h detail => { s with tracer := s.tracer.closing (s.held h) detail }
  | .point h scope name detail =>
    { s with tracer := s.tracer.point scope name detail (s.held h).id }

/-- Makes calls one after another. -/
def performAll (ambient : Nat) (s : Session) (calls : List Call) : Session :=
  calls.foldl (perform ambient) s

end Session

namespace Tracer

/-- Records the calls of work that is done inside the span `ambient`. -/
def recordAll (t : Tracer) (ambient : Nat) (calls : List Call) : Tracer :=
  (Session.performAll ambient { tracer := t } calls).tracer

/-- The events a dump writes: those of the ring. -/
def kept (t : Tracer) : List Event := (t.ring.map Ring.toList).getD []

end Tracer

end StumpGen.Trace
