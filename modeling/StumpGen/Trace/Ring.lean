import StumpGen.Trace.Event

/-!
# Ring buffers

A ring keeps the newest events.  All its places are there from the start, and are written one after
another; behind the last one the first one comes again, and from then on a new event replaces the
oldest one.
-/

namespace StumpGen.Trace

/-- What a place of a ring holds before it is written. -/
def Event.blank : Event := { kind := .other, scope := ⟨0⟩, name := [] }

/-- A buffer for the newest events. -/
structure Ring where
  /-- The number of places. -/
  capacity : Nat
  /-- The places, written or not. -/
  slots : Array Event
  /-- The place to write next. -/
  head : Nat := 0
  /-- Whether the last place was written, so that all of them hold events. -/
  full : Bool := false
  deriving DecidableEq, Repr, Inhabited

namespace Ring

/-- A buffer whose places are all blank. -/
def blank (capacity : Nat) : Ring := { capacity, slots := .replicate capacity .blank }

/-- An empty buffer; a size that is not positive gives the default of 4096 places. -/
def empty (size : Int) : Ring := blank (if 0 < size then size.toNat else 4096)

/-- Adds an event. -/
def push (r : Ring) (e : Event) : Ring :=
  let head := (r.head + 1) % r.capacity
  { r with slots := r.slots.set! r.head e, head, full := r.full || head == 0 }

/-- The events, oldest first. -/
def toList (r : Ring) : List Event :=
  if r.full then r.slots.toList.drop r.head ++ r.slots.toList.take r.head
  else r.slots.toList.take r.head

/-- Changes the events in place. -/
def modify (r : Ring) (f : Event → Event) : Ring := { r with slots := r.slots.map f }

end Ring

end StumpGen.Trace
